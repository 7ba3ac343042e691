import Pcm.DashboardPanels
import Pcm.DashboardValue

/-!
# Layout of the dashboard

Each generator adds panels between the row it starts from and the one it leaves to the next. Only the
generator for near memory puts panels on top of each other: it does not advance `y` between the sockets.
-/

namespace Pcm.Dashboard

open StdString Json

/-! ## Contents of the queries -/

section Contents

variable {S m domain : Bytes} {type : DashboardType}

theorem plain_ascii {l : List Char} (plain : Plain (l.map (fun c => UInt8.ofNat c.toNat))) :
    Plain (ascii (String.ofList l)) := by
  rwa [ascii_ofList]

theorem content_ascii_append {l : List Char} {text : Bytes}
    (content : isContent (l.map (fun c => UInt8.ofNat c.toNat)) = true) (rest : isContent text = true) :
    isContent (ascii (String.ofList l) ++ text) = true :=
  isContent_append (isContent_ascii content) rest

theorem content_decimal (n : Nat) : isContent (decimal n) = true := isContent_plain (plain_decimal n)

theorem plain_prometheusMetric (plain : Plain m) : Plain (prometheusMetric m) := by
  intro c member
  obtain ⟨d, inside, rfl⟩ := List.mem_map.mp member
  split
  · decide
  · exact plain d inside

theorem content_prometheusMetric (plain : Plain m) : isContent (prometheusMetric m) = true :=
  isContent_plain (plain_prometheusMetric plain)

theorem content_interval : isContent (interval type) = true := by
  rw [interval]
  split
  · exact isContent_ascii (by decide)
  · exact isContent_ascii (by decide)

theorem content_prometheusSystem : isContent prometheusSystem = true := isContent_ascii (by decide)

theorem content_prometheusSocket (socket : Plain S) (aggregate : Bool) :
    isContent (prometheusSocket S aggregate) = true := by
  rw [prometheusSocket]
  split
  · exact isContent_append (content_ascii_append (by decide) (isContent_plain socket))
      (isContent_ascii (by decide))
  · exact isContent_append (content_ascii_append (by decide) (isContent_plain socket))
      (isContent_ascii (by decide))

theorem content_prometheusSystemSocket (socket : Plain S) : isContent (prometheusSystemSocket S) = true :=
  isContent_append (content_ascii_append (by decide) (isContent_plain socket)) (isContent_ascii (by decide))

theorem content_influxDBSocketCounters (socket : Plain S) (metric : Plain m) (plain : Plain domain) :
    isContent (influxDBSocketCounters S m domain) = true := by
  simp only [influxDBSocketCounters, List.append_assoc]
  refine content_ascii_append (by decide) (isContent_append (isContent_plain socket) ?_)
  refine content_ascii_append (by decide) (isContent_append (isContent_plain plain) ?_)
  exact content_ascii_append (by decide) (isContent_append (isContent_plain metric)
    (isContent_ascii (by decide)))

theorem content_influxDBSocketCore (socket : Plain S) (metric : Plain m) :
    isContent (influxDBSocketCore S m) = true :=
  content_influxDBSocketCounters socket metric (plain_ascii (by decide))

theorem content_influxDBUncore (socket : Plain S) (metric : Plain m) :
    isContent (influxDBUncore S m) = true :=
  content_influxDBSocketCounters socket metric (plain_ascii (by decide))

theorem content_influxDBCore (metric : Plain m) : isContent (influxDBCore m) = true := by
  simp only [influxDBCore, influxDBCounters, List.append_assoc]
  refine content_ascii_append (by decide) (content_ascii_append (by decide) ?_)
  exact content_ascii_append (by decide) (isContent_append (isContent_plain metric)
    (isContent_ascii (by decide)))

theorem content_prometheusSocketCounters (socket : Plain S) (metric : Plain m) (aggregate : Bool) :
    isContent (prometheusSocketCounters type S m aggregate) = true := by
  simp only [prometheusSocketCounters, List.append_assoc]
  refine content_ascii_append (by decide) (isContent_append (content_prometheusMetric metric) ?_)
  exact isContent_append (content_prometheusSocket socket aggregate)
    (isContent_append content_interval (isContent_ascii (by decide)))

theorem content_prometheusCounters (metric : Plain m) : isContent (prometheusCounters type m) = true := by
  simp only [prometheusCounters, List.append_assoc]
  refine content_ascii_append (by decide) (isContent_append (content_prometheusMetric metric) ?_)
  exact isContent_append content_prometheusSystem
    (isContent_append content_interval (isContent_ascii (by decide)))

/-- The summands of `genAll`. -/
theorem content_genAll {special : Bytes} (content : isContent special = true) :
    isContent (genAll type special) = true := by
  have summand : ∀ {metric : Bytes}, Plain metric → isContent (memorySummand type special metric) = true := by
    intro metric plain
    rw [memorySummand]
    split
    · exact isContent_append (isContent_append (isContent_append content (isContent_ascii (by decide)))
        (isContent_plain plain)) (isContent_ascii (by decide))
    · exact isContent_append (isContent_append (isContent_append (content_ascii_append (by decide)
        (content_prometheusMetric plain)) content) content_interval) (isContent_ascii (by decide))
  have plain : ∀ metric ∈ memoryMetrics, Plain metric := by
    simp only [memoryMetrics, List.forall_mem_cons, List.not_mem_nil, false_implies, implies_true, and_true]
    exact ⟨plain_ascii (by decide), plain_ascii (by decide), plain_ascii (by decide), plain_ascii (by decide)⟩
  have each : ∀ (metrics : List Bytes) (all : Bytes), (∀ metric ∈ metrics, Plain metric) →
      isContent all = true → isContent (metrics.foldl (fun all metric =>
        (if all ≠ [] then all ++ ascii " + " else all) ++ memorySummand type special metric) all) = true := by
    intro metrics
    induction metrics with
    | nil => exact fun all _ clean => clean
    | cons metric metrics ih =>
        intro all plain clean
        refine ih _ (fun other member => plain other (List.mem_cons_of_mem metric member)) ?_
        refine isContent_append ?_ (summand (plain metric List.mem_cons_self))
        split
        · exact isContent_append clean (isContent_ascii (by decide))
        · exact clean
  exact each memoryMetrics [] plain rfl

theorem content_prometheusCStateExpression {source : Bytes} (plain : Plain source) (c : Nat) :
    isContent (prometheusCStateExpression type source c) = true := by
  simp only [prometheusCStateExpression, List.append_assoc]
  refine content_ascii_append (by decide) (isContent_append (content_decimal c) ?_)
  refine content_ascii_append (by decide) (isContent_append (isContent_plain plain) ?_)
  refine content_ascii_append (by decide) (isContent_append content_interval ?_)
  exact content_ascii_append (by decide) (isContent_append content_interval (isContent_ascii (by decide)))

theorem content_computedCState {source : Bytes} (n : Counts) (plain : Plain source) (e : Nat) :
    isContent (prometheusComputedCStateExpression type n source e) = true := by
  have each : ∀ (cs : List Nat) (result : Bytes), isContent result = true →
      isContent (cs.foldl (fun result c =>
        if e ≠ c then result ++ ascii " - (" ++ prometheusCStateExpression type source c ++ ascii ") "
        else result) result) = true := by
    intro cs
    induction cs with
    | nil => exact fun result clean => clean
    | cons c cs ih =>
        intro result clean
        refine ih _ ?_
        change isContent (if e ≠ c then _ else result) = true
        split
        · exact isContent_append (isContent_append (isContent_append clean (isContent_ascii (by decide)))
            (content_prometheusCStateExpression plain c)) (isContent_ascii (by decide))
        · exact clean
  exact each _ _ (isContent_ascii (by decide))

theorem plain_removeInside (opened : Int) (plain : Plain m) : Plain (removeInside opened m) := by
  induction m generalizing opened with
  | nil => exact nofun
  | cons c m ih =>
      have later : Plain m := fun d member => plain d (List.mem_cons_of_mem c member)
      simp only [removeInside]
      split
      · exact ih _ later
      split
      · exact ih _ later
      split
      · intro d member
        rcases List.mem_cons.mp member with rfl | inside
        · exact plain d List.mem_cons_self
        · exact ih opened later d inside
      · exact ih opened later

end Contents

/-! ## Generators -/

/-- Panels that have no place in common. -/
def Apart (p q : Panel) : Prop := p.place.Apart q.place

instance decidableApart (p q : Panel) : Decidable (Apart p q) :=
  inferInstanceAs (Decidable (p.place.Apart q.place))

/-- What a generator adds: panels with clean texts, between the rows where it begins and ends. The panels
have few targets, or are apart, in these cases. -/
def Generates (generator : Layout → Layout) (few apart : Prop) : Prop :=
  ∀ l, ∃ new, (generator l).panels = l.panels ++ new ∧ l.y ≤ (generator l).y ∧
    (∀ p ∈ new, p.Clean ∧ l.y ≤ p.y ∧ p.y + p.h ≤ (generator l).y) ∧
    ((∀ p ∈ new, p.targets.length ≤ 27) ↔ few) ∧ (new.Pairwise Apart ↔ apart)

section Generates

variable {few few' apart apart' : Prop} {f g : Layout → Layout}

theorem Generates.congr (generates : Generates f few apart) (sameFew : few ↔ few')
    (sameApart : apart ↔ apart') : Generates f few' apart' := by
  intro l
  obtain ⟨new, panels, rows, clean, fewTargets, places⟩ := generates l
  exact ⟨new, panels, rows, clean, fewTargets.trans sameFew, places.trans sameApart⟩

theorem Generates.id : Generates id True True := by
  intro l
  exact ⟨[], by simp, Nat.le_refl _, nofun, by simp, by simp⟩

/-- One generator after the other. -/
theorem Generates.comp (first : Generates f few apart) (second : Generates g few' apart') :
    Generates (fun l => g (f l)) (few ∧ few') (apart ∧ apart') := by
  intro l
  obtain ⟨new, panels, rows, clean, fewTargets, places⟩ := first l
  obtain ⟨new', panels', rows', clean', fewTargets', places'⟩ := second (f l)
  refine ⟨new ++ new', ?_, Nat.le_trans rows rows', ?_, ?_, ?_⟩
  · rw [panels', panels, List.append_assoc]
  · intro p member
    rcases List.mem_append.mp member with before | after
    · obtain ⟨isClean, low, high⟩ := clean p before
      exact ⟨isClean, low, Nat.le_trans high rows'⟩
    · obtain ⟨isClean, low, high⟩ := clean' p after
      exact ⟨isClean, Nat.le_trans rows low, high⟩
  · rw [List.forall_mem_append, fewTargets, fewTargets']
  · have across : ∀ p ∈ new, ∀ q ∈ new', Apart p q := by
      intro p inNew q inNew'
      have high := (clean p inNew).2.2
      have low := (clean' q inNew').2.1
      exact Or.inr (Or.inr (Or.inl (Nat.le_trans high low)))
    rw [List.pairwise_append, places, places']
    exact ⟨fun both => ⟨both.1, both.2.1⟩, fun both => ⟨both.1, both.2, across⟩⟩

theorem Generates.ite {c : Prop} [Decidable c] (generates : c → Generates f few apart) :
    Generates (fun l => if c then f l else l) (c → few) (c → apart) := by
  by_cases holds : c
  · simp only [if_pos holds]
    exact (generates holds).congr ⟨fun few _ => few, fun few => few holds⟩
      ⟨fun apart _ => apart, fun apart => apart holds⟩
  · simp only [if_neg holds]
    exact Generates.id.congr ⟨fun _ other => absurd other holds, fun _ => trivial⟩
      ⟨fun _ other => absurd other holds, fun _ => trivial⟩

/-- A loop over generators. -/
theorem Generates.foldl {α : Type} {xs : List α} {generator : α → Layout → Layout} {few apart : α → Prop}
    (each : ∀ x ∈ xs, Generates (generator x) (few x) (apart x)) :
    Generates (fun l => xs.foldl (fun l x => generator x l) l) (∀ x ∈ xs, few x) (∀ x ∈ xs, apart x) := by
  induction xs with
  | nil => exact Generates.id.congr (by simp) (by simp)
  | cons x xs ih =>
      have later := ih (fun y member => each y (List.mem_cons_of_mem x member))
      exact ((each x List.mem_cons_self).comp later).congr List.forall_mem_cons.symm List.forall_mem_cons.symm

theorem Generates.forEach {n : Nat} {row : Nat → Layout → Layout} {few apart : Prop}
    (each : ∀ s, Generates (row s) few apart) :
    Generates (forEach n row) (n ≠ 0 → few) (n ≠ 0 → apart) := by
  have loop := Generates.foldl (fun s (_ : s ∈ List.range n) => each s)
  refine loop.congr ?_ ?_
  all_goals
    constructor
    · intro all positive
      exact all 0 (List.mem_range.mpr (Nat.pos_of_ne_zero positive))
    · intro some s member
      exact some (Nat.ne_of_gt (Nat.lt_of_le_of_lt (Nat.zero_le s) (List.mem_range.mp member)))

/-- The two panels of a row. -/
theorem Generates.addRow {h : Nat} {title label title1 : Bytes} {isStacked : Bool} {kind : PanelKind}
    {targets : List Target} (cleanTitle : isContent title = true) (cleanLabel : isContent label = true)
    (cleanKind : kind.Clean) (cleanTitle1 : isContent title1 = true) (clean : ∀ t ∈ targets, t.Clean) :
    Generates (addRow h title label isStacked kind title1 targets) (targets.length ≤ 27) True := by
  intro l
  refine ⟨_, rfl, Nat.le_add_right _ _, ?_, ?_, ?_⟩
  · rw [rowPanels, List.forall_mem_cons, List.forall_mem_singleton]
    exact ⟨⟨⟨cleanTitle, cleanLabel, clean⟩, Nat.le_refl _, Nat.le_refl _⟩,
      ⟨cleanTitle1, cleanKind, clean⟩, Nat.le_refl _, Nat.le_refl _⟩
  · rw [rowPanels, List.forall_mem_cons, List.forall_mem_singleton, and_self]
  · refine iff_of_true ?_ trivial
    rw [rowPanels, List.pairwise_pair]
    exact Or.inl (Nat.le_refl _)

end Generates

/-! ## The generators of the dashboard -/

section Generators

variable {type : DashboardType} {m : Machine} {n : Counts}

theorem clean_barGauge : PanelKind.barGauge.Clean := trivial

theorem clean_gauge : PanelKind.gauge.Clean := trivial

theorem clean_map_range {k : Nat} {f : Nat → Target} (each : ∀ s, (f s).Clean) :
    ∀ t ∈ (List.range k).map f, t.Clean := by
  intro t member
  obtain ⟨s, -, rfl⟩ := List.mem_map.mp member
  exact each s

theorem clean_map {metrics : List Bytes} {f : Bytes → Target} (plain : ∀ metric ∈ metrics, Plain metric)
    (each : ∀ metric, Plain metric → (f metric).Clean) : ∀ t ∈ metrics.map f, t.Clean := by
  intro t member
  obtain ⟨metric, inside, rfl⟩ := List.mem_map.mp member
  exact each metric (plain metric inside)

theorem clean_socketsAndTotal {target : Bytes → Target} {total : Target}
    (each : ∀ S, Plain S → (target S).Clean) (clean : total.Clean) :
    ∀ t ∈ socketsAndTotal n target total, t.Clean := by
  rw [socketsAndTotal, List.forall_mem_append, List.forall_mem_singleton]
  exact ⟨clean_map_range (fun s => each (decimal s) (plain_decimal s)), clean⟩

theorem length_socketsAndTotal {target : Bytes → Target} {total : Target} :
    (socketsAndTotal n target total).length = n.numSockets + 1 := by
  rw [socketsAndTotal, List.length_append, List.length_map, List.length_range, List.length_singleton]

/-- `Socket`, its number, and a text. -/
theorem content_socketTitle {l l' : List Char} (s : Nat)
    (before : isContent (l.map (fun c => UInt8.ofNat c.toNat)) = true)
    (after : isContent (l'.map (fun c => UInt8.ofNat c.toNat)) = true) :
    isContent (ascii (String.ofList l) ++ decimal s ++ ascii (String.ofList l')) = true :=
  isContent_append (content_ascii_append before (content_decimal s)) (isContent_ascii after)

theorem content_socket {S : Bytes} (socket : Plain S) : isContent (ascii "Socket" ++ S) = true :=
  content_ascii_append (by decide) (isContent_plain socket)

theorem generates_scaled {metric unit op : Bytes} (plain : Plain metric) (plainUnit : Plain unit)
    (plainOp : Plain op) : Generates (scaled type n metric unit op) (n.numSockets ≤ 26) True := by
  refine (Generates.addRow (isContent_plain plain) (isContent_plain plainUnit) clean_barGauge ?_
    (clean_socketsAndTotal (fun S socket => ?_) ?_)).congr ?_ Iff.rfl
  · exact isContent_append (isContent_append (isContent_append (isContent_plain plain)
      (isContent_ascii (by decide))) (isContent_plain plainUnit)) (isContent_ascii (by decide))
  · exact ⟨content_socket socket,
      isContent_append (content_influxDBSocketCore socket plain) (isContent_plain plainOp),
      isContent_append (content_prometheusSocketCounters socket plain true) (isContent_plain plainOp)⟩
  · exact ⟨isContent_ascii (by decide),
      isContent_append (content_influxDBCore plain) (isContent_plain plainOp),
      isContent_append (content_prometheusCounters plain) (isContent_plain plainOp)⟩
  · rw [length_socketsAndTotal]
    omega

theorem generates_uncoreFrequencies (s : Nat) :
    Generates (uncoreFrequencies type m s) (m.numUFSDies ≤ 27) True := by
  have die : ∀ d, Plain (ascii "Uncore Frequency Die " ++ decimal d) := by
    intro d
    exact (plain_ascii (by decide)).append (plain_decimal d)
  refine (Generates.addRow (content_socketTitle s (by decide) (by decide)) (isContent_ascii (by decide)) clean_barGauge
    (content_socketTitle s (by decide) (by decide)) (clean_map_range (fun d => ?_))).congr ?_ Iff.rfl
  · exact ⟨isContent_plain (die d),
      isContent_append (content_influxDBUncore (plain_decimal s) (die d)) (isContent_ascii (by decide)),
      isContent_append (content_prometheusSocketCounters (plain_decimal s) (die d) false)
        (isContent_ascii (by decide))⟩
  · rw [List.length_map, List.length_range]
    omega

theorem plain_joules : ∀ metric ∈ joules, Plain metric := by
  simp only [joules, List.forall_mem_cons, List.not_mem_nil, false_implies, implies_true, and_true]
  exact ⟨plain_ascii (by decide), plain_ascii (by decide), plain_ascii (by decide), plain_ascii (by decide)⟩

theorem generates_energy (s : Nat) : Generates (energy type s) True True := by
  refine (Generates.addRow (content_socketTitle s (by decide) (by decide)) (isContent_ascii (by decide)) clean_barGauge
    (content_socketTitle s (by decide) (by decide)) (clean_map plain_joules (fun metric plain => ?_))).congr
    ?_ Iff.rfl
  · exact ⟨isContent_plain plain, content_influxDBUncore (plain_decimal s) plain,
      content_prometheusSocketCounters (plain_decimal s) plain false⟩
  · exact iff_of_true (by rw [List.length_map]; decide) trivial

theorem plain_memoryMetrics : ∀ metric ∈ memoryMetrics, Plain metric := by
  simp only [memoryMetrics, List.forall_mem_cons, List.not_mem_nil, false_implies, implies_true, and_true]
  exact ⟨plain_ascii (by decide), plain_ascii (by decide), plain_ascii (by decide), plain_ascii (by decide)⟩

theorem generates_memoryBandwidth : Generates (memoryBandwidth type n) (n.numSockets ≤ 26) True := by
  refine (Generates.addRow (isContent_ascii (by decide)) (isContent_ascii (by decide)) clean_barGauge
    (isContent_ascii (by decide)) (clean_socketsAndTotal (fun S socket => ?_) ?_)).congr ?_ Iff.rfl
  · refine ⟨content_socket socket, content_genAll ?_, content_genAll (content_prometheusSocket socket false)⟩
    exact isContent_append (content_ascii_append (by decide) (isContent_plain socket))
      (isContent_ascii (by decide))
  · exact ⟨isContent_ascii (by decide), content_genAll (isContent_ascii (by decide)),
      content_genAll content_prometheusSystem⟩
  · rw [length_socketsAndTotal]
    omega

theorem plain_cxlMetrics : ∀ metric ∈ cxlMetrics, Plain metric := by
  simp only [cxlMetrics, List.forall_mem_cons, List.not_mem_nil, false_implies, implies_true, and_true]
  exact ⟨plain_ascii (by decide), plain_ascii (by decide)⟩

theorem clean_memoryTotal {S kind : Bytes} (socket : Plain S) (plain : Plain kind) :
    (memoryTotal type S kind).Clean := by
  have writes : Plain (kind ++ ascii "Writes") := plain.append (plain_ascii (by decide))
  have reads : Plain (kind ++ ascii "Reads") := plain.append (plain_ascii (by decide))
  refine ⟨isContent_append (isContent_plain plain) (isContent_ascii (by decide)), ?_, ?_⟩
  · exact isContent_append (isContent_append (isContent_append (content_ascii_append (by decide)
      (content_influxDBUncore socket writes)) (isContent_ascii (by decide)))
      (content_influxDBUncore socket reads)) (isContent_ascii (by decide))
  · exact isContent_append (isContent_append (isContent_append (content_ascii_append (by decide)
      (content_prometheusSocketCounters socket writes false)) (isContent_ascii (by decide)))
      (content_prometheusSocketCounters socket reads false)) (isContent_ascii (by decide))

/-- A counter of the uncore in megabytes. -/
theorem clean_uncoreTarget (s : Nat) {metric : Bytes} (plain : Plain metric) :
    Target.Clean ⟨metric, influxDBUncore (decimal s) metric ++ megabytes,
      prometheusSocketCounters type (decimal s) metric false ++ megabytes⟩ :=
  ⟨isContent_plain plain,
    isContent_append (content_influxDBUncore (plain_decimal s) plain) (isContent_ascii (by decide)),
    isContent_append (content_prometheusSocketCounters (plain_decimal s) plain false)
      (isContent_ascii (by decide))⟩

theorem generates_socketMemoryBandwidth (s : Nat) : Generates (socketMemoryBandwidth type s) True True := by
  refine (Generates.addRow (content_socketTitle s (by decide) (by decide)) (isContent_ascii (by decide)) clean_barGauge
    (content_socketTitle s (by decide) (by decide)) ?_).congr ?_ Iff.rfl
  · rw [List.forall_mem_append, List.forall_mem_append, List.forall_mem_cons, List.forall_mem_singleton]
    refine ⟨⟨clean_map plain_memoryMetrics (fun metric plain => clean_uncoreTarget s plain),
      clean_map plain_cxlMetrics (fun metric plain => ⟨isContent_plain plain, ?_, ?_⟩)⟩,
      clean_memoryTotal (plain_decimal s) (plain_ascii (by decide)),
      clean_memoryTotal (plain_decimal s) (plain_ascii (by decide))⟩
    · exact isContent_append (isContent_append (isContent_append (content_ascii_append (by decide)
        (content_decimal s)) (isContent_ascii (by decide))) (isContent_plain plain))
        (isContent_ascii (by decide))
    · exact isContent_append (content_prometheusSocketCounters (plain_decimal s) plain false)
        (isContent_ascii (by decide))
  · exact iff_of_true (by simp [memoryMetrics, cxlMetrics]) trivial

theorem generates_nearMemoryHitRate : Generates (nearMemoryHitRate type n) (n.numSockets ≤ 27) True := by
  refine (Generates.addRow (isContent_ascii (by decide)) (isContent_ascii (by decide)) clean_gauge
    (isContent_ascii (by decide)) (clean_map_range (fun s => ?_))).congr ?_ Iff.rfl
  · exact ⟨content_ascii_append (by decide) (content_decimal s),
      (clean_uncoreTarget s (plain_ascii (by decide))).2⟩
  · rw [List.length_map, List.length_range]

theorem plain_nearMemoryMetrics : ∀ metric ∈ nearMemoryMetrics, Plain metric := by
  simp only [nearMemoryMetrics, List.forall_mem_cons, List.not_mem_nil, false_implies, implies_true, and_true]
  exact ⟨plain_ascii (by decide), plain_ascii (by decide), plain_ascii (by decide)⟩

variable (type) in
/-- The panels with the hits of the first sockets are all in one row. -/
theorem nearMemoryHits_panels (l : Layout) (k : Nat) :
    ∃ new, forEach k (nearMemoryHits type) l = { l with panels := l.panels ++ new } ∧
      (∀ p ∈ new, p.Clean ∧ p.y = l.y ∧ p.h = height ∧ p.targets.length ≤ 27) ∧
      (k = 0 → new = []) ∧ (k ≠ 0 → ∃ p ∈ new, p.x = 0 ∧ p.w = 15) := by
  induction k with
  | zero => exact ⟨[], by simp [forEach], nofun, fun _ => rfl, fun positive => absurd rfl positive⟩
  | succ k ih =>
      obtain ⟨new, panels, each, -, -⟩ := ih
      have clean : ∀ t ∈ nearMemoryHitsTargets type (decimal k), t.Clean :=
        clean_map plain_nearMemoryMetrics (fun metric plain => clean_uncoreTarget k plain)
      have fewTargets : (nearMemoryHitsTargets type (decimal k)).length ≤ 27 := by
        rw [nearMemoryHitsTargets, List.length_map]
        decide
      have next : forEach (k + 1) (nearMemoryHits type) l =
          nearMemoryHits type k (forEach k (nearMemoryHits type) l) := by
        rw [forEach, List.range_succ, List.foldl_concat, forEach]
      have inRow : ∀ p ∈ rowPanels l.y height (ascii "Socket" ++ decimal k ++ ascii " Near Memory Hit Miss")
          (ascii "M/s") false .barGauge (ascii "Current Socket" ++ decimal k ++ ascii "Near Memory Hit/Miss")
          (nearMemoryHitsTargets type (decimal k)),
          p.Clean ∧ p.y = l.y ∧ p.h = height ∧ p.targets.length ≤ 27 := by
        rw [rowPanels, List.forall_mem_cons, List.forall_mem_singleton]
        exact ⟨⟨⟨content_socketTitle k (by decide) (by decide), isContent_ascii (by decide), clean⟩,
            rfl, rfl, fewTargets⟩,
          ⟨content_socketTitle k (by decide) (by decide), clean_barGauge, clean⟩, rfl, rfl, fewTargets⟩
      refine ⟨new ++ rowPanels l.y height (ascii "Socket" ++ decimal k ++ ascii " Near Memory Hit Miss")
          (ascii "M/s") false .barGauge (ascii "Current Socket" ++ decimal k ++ ascii "Near Memory Hit/Miss")
          (nearMemoryHitsTargets type (decimal k)), ?_, ?_, fun zero => absurd zero (Nat.succ_ne_zero k), ?_⟩
      · rw [next, panels, nearMemoryHits, List.append_assoc]
      · exact List.forall_mem_append.mpr ⟨each, inRow⟩
      · intro _
        exact ⟨_, List.mem_append_right new List.mem_cons_self, rfl, rfl⟩

/-- The first panel of the hit rate is in the place of the first one of each socket. -/
theorem nearMemoryHitRate_first {l : Layout} {new : List Panel}
    (panels : (nearMemoryHitRate type n l).panels = l.panels ++ new) :
    ∃ p ∈ new, p.x = 0 ∧ p.w = 15 ∧ p.y = l.y ∧ p.h = height := by
  have row := List.append_cancel_left panels
  rw [← row]
  exact ⟨_, List.mem_cons_self, rfl, rfl, rfl, rfl⟩

/-- The panels for near memory are apart only without sockets. -/
theorem generates_nearMemory : Generates (nearMemory type m n)
    (m.nearMemoryMetricsAvailable = true → n.numSockets ≤ 27)
    (m.nearMemoryMetricsAvailable = true → n.numSockets = 0) := by
  refine Generates.ite (fun _ l => ?_)
  obtain ⟨hits, added, each, none, some⟩ :=
    nearMemoryHits_panels type { l with y := l.y + height } n.numSockets
  obtain ⟨rate, panels, rows, clean, fewTargets, places⟩ :=
    (generates_nearMemoryHitRate : Generates (nearMemoryHitRate type n) _ _)
      { l with y := l.y + height, panels := l.panels ++ hits }
  rw [added]
  refine ⟨hits ++ rate, by rw [panels, List.append_assoc], Nat.le_trans (Nat.le_add_right _ _) rows, ?_, ?_, ?_⟩
  · refine List.forall_mem_append.mpr ⟨?_, ?_⟩
    · intro p member
      obtain ⟨isClean, place, high, -⟩ := each p member
      exact ⟨isClean, Nat.le_trans (Nat.le_add_right _ _) (Nat.le_of_eq place.symm),
        Nat.le_of_eq (by rw [place, high]; rfl)⟩
    · intro p member
      obtain ⟨isClean, low, high⟩ := clean p member
      exact ⟨isClean, Nat.le_trans (Nat.le_add_right _ _) low, high⟩
  · rw [List.forall_mem_append, fewTargets]
    exact and_iff_right (fun p member => (each p member).2.2.2)
  · rw [List.pairwise_append, places]
    constructor
    · rintro ⟨-, -, across⟩
      by_contra positive
      obtain ⟨p, inHits, left, width⟩ := some positive
      obtain ⟨-, place, high, -⟩ := each p inHits
      obtain ⟨q, inRate, left', width', place', high'⟩ := nearMemoryHitRate_first panels
      have apart := across p inHits q inRate
      simp only [Apart, GridPos.Apart, Panel.place, left, width, place, high, left', width', place', high', height] at apart
      omega
    · intro zero
      rw [none zero]
      exact ⟨List.Pairwise.nil, trivial, nofun⟩

theorem content_ratio {counter : Bytes → Bytes} (each : ∀ metric, Plain metric → isContent (counter metric) = true) :
    isContent (ratio counter) = true := by
  have pmemWrites := each (ascii "Persistent Memory Writes") (plain_ascii (by decide))
  have pmemReads := each (ascii "Persistent Memory Reads") (plain_ascii (by decide))
  have dramWrites := each (ascii "DRAM Writes") (plain_ascii (by decide))
  have dramReads := each (ascii "DRAM Reads") (plain_ascii (by decide))
  have dram : isContent (ascii "(" ++ counter (ascii "DRAM Writes") ++ ascii "+" ++
      counter (ascii "DRAM Reads") ++ ascii ")") = true :=
    isContent_append (isContent_append (isContent_append (content_ascii_append (by decide) dramWrites)
      (isContent_ascii (by decide))) dramReads) (isContent_ascii (by decide))
  have pmem : isContent (ascii "(" ++ counter (ascii "Persistent Memory Writes") ++ ascii "+" ++
      counter (ascii "Persistent Memory Reads") ++ ascii ")/") = true :=
    isContent_append (isContent_append (isContent_append (content_ascii_append (by decide) pmemWrites)
      (isContent_ascii (by decide))) pmemReads) (isContent_ascii (by decide))
  have both := isContent_append pmem dram
  simpa only [ratio, List.append_assoc] using both

theorem content_ratio_influxDB (s : Nat) : isContent (ratio (influxDBUncore (decimal s))) = true :=
  content_ratio (fun _ plain => content_influxDBUncore (plain_decimal s) plain)

theorem content_ratio_prometheus (s : Nat) :
    isContent (ratio (fun metric => prometheusSocketCounters type (decimal s) metric false)) = true :=
  content_ratio (fun _ plain => content_prometheusSocketCounters (plain_decimal s) plain false)

theorem generates_bandwidthRatio : Generates (bandwidthRatio type n) (n.numSockets ≤ 27) True := by
  refine (Generates.addRow (isContent_ascii (by decide)) (isContent_ascii (by decide)) clean_barGauge
    (isContent_ascii (by decide)) (clean_map_range (fun s => ?_))).congr ?_ Iff.rfl
  · exact ⟨content_socket (plain_decimal s), content_ratio_influxDB s, content_ratio_prometheus s⟩
  · rw [List.length_map, List.length_range]

theorem generates_stacked {title : Bytes} {metrics : List Bytes} {core : Bool} (plainTitle : Plain title)
    (plain : ∀ metric ∈ metrics, Plain metric) (s : Nat) :
    Generates (stacked title metrics core s) (metrics.length ≤ 27) True := by
  refine (Generates.addRow ?_ (isContent_ascii (by decide)) clean_barGauge ?_
    (clean_map plain (fun metric isPlain => ⟨isContent_plain isPlain, ?_, rfl⟩))).congr ?_ Iff.rfl
  · exact isContent_append (content_socketTitle s (by decide) (by decide)) (isContent_plain plainTitle)
  · exact isContent_append (content_ascii_append (by decide) (isContent_plain plainTitle))
      (isContent_ascii (by decide))
  · change isContent (if core then _ else _) = true
    split
    · exact content_influxDBSocketCore (plain_decimal s) isPlain
    · exact content_influxDBUncore (plain_decimal s) isPlain
  · rw [List.length_map]

theorem plain_xPI : Plain (xPI m) := by
  rw [xPI]
  split
  · exact plain_ascii (by decide)
  · exact plain_ascii (by decide)

theorem clean_upiTarget {metric suffix : Bytes} (plain : Plain metric) (plainSuffix : Plain suffix)
    (s link : Nat) :
    Target.Clean ⟨xPI m ++ decimal link,
      ascii "mean(\\\"QPI/UPI Links_QPI Counters Socket " ++ decimal s ++ ascii "_" ++ metric ++
        ascii " On Link " ++ decimal link ++ ascii "\\\")" ++ suffix,
      ascii "rate(" ++ prometheusMetric metric ++ ascii "_On_Link_" ++ decimal link ++
        prometheusSystemSocket (decimal s) ++ interval type ++ ascii ")" ++ suffix⟩ := by
  simp only [List.append_assoc]
  refine ⟨isContent_append (isContent_plain plain_xPI) (content_decimal link), ?_, ?_⟩
  · refine content_ascii_append (by decide) (isContent_append (content_decimal s) ?_)
    refine content_ascii_append (by decide) (isContent_append (isContent_plain plain) ?_)
    refine content_ascii_append (by decide) (isContent_append (content_decimal link) ?_)
    exact content_ascii_append (by decide) (isContent_plain plainSuffix)
  · refine content_ascii_append (by decide) (isContent_append (content_prometheusMetric plain) ?_)
    refine content_ascii_append (by decide) (isContent_append (content_decimal link) ?_)
    refine isContent_append (content_prometheusSystemSocket (plain_decimal s)) ?_
    exact isContent_append content_interval (content_ascii_append (by decide) (isContent_plain plainSuffix))

theorem generates_upiRow {metric : Bytes} {utilization : Bool} (plain : Plain metric) (s : Nat) :
    Generates (upiRow type m n metric utilization s) (n.numUPILinksPerSocket ≤ 27) True := by
  have suffix : Plain (if utilization then ascii "*100" else ascii "/1048576") := by
    split
    · exact plain_ascii (by decide)
    · exact plain_ascii (by decide)
  refine (Generates.addRow ?_ ?_ ?_ ?_ (clean_map_range (fun link => clean_upiTarget plain suffix s link))).congr
    ?_ Iff.rfl
  · exact isContent_append (isContent_append (isContent_append (content_socketTitle s (by decide) (by decide))
      (isContent_plain plain_xPI)) (isContent_ascii (by decide))) (isContent_plain plain)
  · split
    · exact isContent_ascii (by decide)
    · exact isContent_ascii (by decide)
  · split
    · exact clean_gauge
    · exact clean_barGauge
  · refine isContent_append (isContent_append (content_socketTitle s (by decide) (by decide))
      (isContent_plain plain)) ?_
    split
    · exact isContent_ascii (by decide)
    · exact isContent_ascii (by decide)
  · rw [List.length_map, List.length_range]

theorem generates_upi {metric : Bytes} {utilization : Bool} (plain : Plain metric) :
    Generates (upi type m n metric utilization) (n.numSockets ≠ 0 → n.numUPILinksPerSocket ≤ 27) True := by
  have rows : Generates (forEach n.numSockets (upiRow type m n metric utilization))
      (n.numSockets ≠ 0 → n.numUPILinksPerSocket ≤ 27) (n.numSockets ≠ 0 → True) :=
    Generates.forEach (generates_upiRow plain)
  have generates : Generates (upi type m n metric utilization) _ _ := Generates.ite (fun _ => rows)
  refine generates.congr ?_ (by simp)
  omega

theorem generates_cstate {title tPrefix source : Bytes} (plainTitle : Plain title) (plainPrefix : Plain tPrefix)
    (plain : Plain source) : Generates (cstate type n title tPrefix source) (n.maxCState ≤ 26) True := by
  refine (Generates.addRow ?_ (isContent_ascii (by decide)) clean_barGauge ?_
    (clean_map_range (fun c => ?_))).congr ?_ Iff.rfl
  · exact isContent_append (isContent_plain plainTitle) (isContent_ascii (by decide))
  · exact isContent_append (content_ascii_append (by decide) (isContent_plain plainTitle))
      (isContent_ascii (by decide))
  · refine ⟨content_ascii_append (by decide) (content_decimal c), ?_, ?_⟩
    · exact isContent_append (isContent_append (isContent_append (content_ascii_append (by decide)
        (isContent_plain plainPrefix)) (isContent_ascii (by decide))) (content_decimal c))
        (isContent_ascii (by decide))
    · change isContent (if _ then _ else _) = true
      split
      · exact content_computedCState n plain c
      · exact content_prometheusCStateExpression plain c
  · rw [List.length_map, List.length_range]
    omega

theorem generates_derived {fullName shortName dividend divisor : Bytes} (plainFull : Plain fullName)
    (plainShort : Plain shortName) (plainDividend : Plain dividend) (plainDivisor : Plain divisor) :
    Generates (derived type n fullName shortName dividend divisor) (n.numSockets ≤ 26) True := by
  refine (Generates.addRow (isContent_plain plainFull) (isContent_plain plainShort) clean_barGauge
    (isContent_plain plainFull) (clean_socketsAndTotal (fun S socket => ?_) ?_)).congr ?_ Iff.rfl
  · exact ⟨content_socket socket,
      isContent_append (isContent_append (content_influxDBSocketCore socket plainDividend)
        (isContent_ascii (by decide))) (content_influxDBSocketCore socket plainDivisor),
      isContent_append (isContent_append (content_prometheusSocketCounters socket plainDividend true)
        (isContent_ascii (by decide))) (content_prometheusSocketCounters socket plainDivisor true)⟩
  · exact ⟨isContent_ascii (by decide),
      isContent_append (isContent_append (content_influxDBCore plainDividend) (isContent_ascii (by decide)))
        (content_influxDBCore plainDivisor),
      isContent_append (isContent_append (content_prometheusCounters plainDividend)
        (isContent_ascii (by decide))) (content_prometheusCounters plainDivisor)⟩
  · rw [length_socketsAndTotal]
    omega

theorem generates_accelCounters {accel : Accel} {metric : Bytes} (plainName : Plain accel.name)
    (plain : Plain metric) : Generates (accelCounters type accel metric) (accel.devs ≤ 27) True := by
  refine (Generates.addRow ?_ (isContent_ascii (by decide)) clean_barGauge ?_
    (clean_map_range (fun s => ?_))).congr ?_ Iff.rfl
  · exact isContent_append (isContent_append (isContent_plain plainName) (isContent_ascii (by decide)))
      (isContent_plain plain)
  · exact isContent_append (content_ascii_append (by decide) (isContent_plain plainName))
      (isContent_ascii (by decide))
  · simp only [List.append_assoc]
    refine ⟨content_ascii_append (by decide) (content_decimal s), ?_, ?_⟩
    · refine content_ascii_append (by decide) (isContent_append (isContent_plain plainName) ?_)
      refine content_ascii_append (by decide) (isContent_append (content_decimal s) ?_)
      refine content_ascii_append (by decide) (isContent_append (isContent_plain plain) ?_)
      exact content_ascii_append (by decide) (isContent_ascii (by decide))
    · have stripped : Plain (removeInside 0 metric) := plain_removeInside 0 plain
      refine content_ascii_append (by decide) (isContent_append (content_prometheusMetric stripped) ?_)
      refine content_ascii_append (by decide) (isContent_append (isContent_plain plainName) ?_)
      refine content_ascii_append (by decide) (isContent_append (content_decimal s) ?_)
      refine content_ascii_append (by decide) (isContent_append content_interval ?_)
      exact content_ascii_append (by decide) (isContent_ascii (by decide))
  · rw [List.length_map, List.length_range]

/-- Names without quotes, backslashes and control characters. -/
structure Machine.PlainNames (m : Machine) : Prop where
  hostname : Plain m.hostname
  name : ∀ accel ∈ m.accel, Plain accel.name
  counters : ∀ accel ∈ m.accel, ∀ counter ∈ accel.counters, Plain counter

theorem generates_accelerators (plain : m.PlainNames) : Generates (accelerators type m)
    (∀ accel ∈ m.accel, accel.counters ≠ [] → accel.devs ≤ 27) True := by
  intro l
  rw [accelerators]
  match chosen : m.accel with
  | none => exact Generates.id.congr (by simp) Iff.rfl l
  | some accel =>
      have rows : Generates (fun l => accel.counters.foldl (fun l metric => accelCounters type accel metric l) l)
          (∀ metric ∈ accel.counters, accel.devs ≤ 27) (∀ metric ∈ accel.counters, True) :=
        Generates.foldl (fun metric member => generates_accelCounters (plain.name accel chosen)
          (plain.counters accel chosen metric member))
      refine rows.congr ?_ (by simp) l
      simp only [Option.mem_def, Option.some.injEq, forall_eq']
      constructor
      · intro all some
        obtain ⟨metric, member⟩ := List.exists_mem_of_ne_nil _ some
        exact all metric member
      · intro few metric member
        exact few (List.ne_nil_of_mem member)

theorem Generates.influxDBOnly {generator : Layout → Layout} {few apart : Prop}
    (generates : Generates generator few apart) :
    Generates (influxDBOnly type generator) (type = .influxDB → few) (type = .influxDB → apart) :=
  Generates.ite (fun _ => generates)

/-- The numbers of targets that the dashboard has letters for. -/
structure FewTargets (type : DashboardType) (m : Machine) (n : Counts) : Prop where
  sockets : n.numSockets ≤ 26
  dies : type = .influxDB → n.numSockets ≠ 0 → m.numUFSDies ≤ 27
  links : n.numSockets ≠ 0 → n.numUPILinksPerSocket ≤ 27
  cStates : n.maxCState ≤ 26
  devs : ∀ accel ∈ m.accel, accel.counters ≠ [] → accel.devs ≤ 27

theorem Generates.nil :
    Generates (fun l => ([] : List (Layout → Layout)).foldl (fun l generator => generator l) l) True True :=
  Generates.id

theorem Generates.cons {gs : List (Layout → Layout)} {f : Layout → Layout} {few few' apart apart' : Prop}
    (first : Generates f few apart)
    (later : Generates (fun l => gs.foldl (fun l generator => generator l) l) few' apart') :
    Generates (fun l => (f :: gs).foldl (fun l generator => generator l) l) (few ∧ few') (apart ∧ apart') :=
  first.comp later

theorem Generates.append {gs gs' : List (Layout → Layout)} {few few' apart apart' : Prop}
    (first : Generates (fun l => gs.foldl (fun l generator => generator l) l) few apart)
    (later : Generates (fun l => gs'.foldl (fun l generator => generator l) l) few' apart') :
    Generates (fun l => (gs ++ gs').foldl (fun l generator => generator l) l) (few ∧ few') (apart ∧ apart') := by
  simp only [List.foldl_append]
  exact first.comp later

theorem generates_million {metrics : List Bytes} (some : metrics ≠ []) (plain : ∀ metric ∈ metrics, Plain metric) :
    Generates (fun l => (metrics.map (fun metric =>
      scaled type n metric (ascii "Million") (ascii "/1000000"))).foldl (fun l generator => generator l) l)
    (n.numSockets ≤ 26) True := by
  simp only [List.foldl_map]
  refine (Generates.foldl (fun metric member => generates_scaled (plain metric member)
    (plain_ascii (by decide)) (plain_ascii (by decide)))).congr ?_ (by simp)
  obtain ⟨metric, member⟩ := List.exists_mem_of_ne_nil _ some
  exact ⟨fun all => all metric member, fun few _ _ => few⟩

theorem plain_coreStalls : ∀ metric ∈ coreStalls, Plain metric := by
  simp only [coreStalls, List.forall_mem_cons, List.not_mem_nil, false_implies, implies_true, and_true]
  refine ⟨?_, ?_, ?_, ?_, ?_, ?_, ?_, ?_, ?_, ?_, ?_, ?_⟩
  all_goals exact plain_ascii (by decide)

theorem plain_millions : ∀ metric ∈ [ascii "Instructions Retired Any", ascii "Clock Unhalted Thread",
    ascii "L2 Cache Hits", ascii "L2 Cache Misses", ascii "L3 Cache Hits", ascii "L3 Cache Misses"],
    Plain metric := by
  simp only [List.forall_mem_cons, List.not_mem_nil, false_implies, implies_true, and_true]
  refine ⟨?_, ?_, ?_, ?_, ?_, ?_⟩
  all_goals exact plain_ascii (by decide)

theorem plain_requestRatios :
    ∀ metric ∈ [ascii "Local Memory Request Ratio", ascii "Remote Memory Request Ratio"], Plain metric := by
  rw [List.forall_mem_cons, List.forall_mem_singleton]
  exact ⟨plain_ascii (by decide), plain_ascii (by decide)⟩

theorem generates_derivedIPC : Generates (derived type n (ascii "Instructions Per Cycle") (ascii "IPC")
    (ascii "Instructions Retired Any") (ascii "Clock Unhalted Thread")) (n.numSockets ≤ 26) True :=
  generates_derived (plain_ascii (by decide)) (plain_ascii (by decide)) (plain_ascii (by decide))
    (plain_ascii (by decide))

variable (type n) in
/-- All generators together. -/
theorem generates_layout (plain : m.PlainNames) :
    Generates (fun l => (generators type m n).foldl (fun l generator => generator l) l) (FewTargets type m n)
      (m.nearMemoryMetricsAvailable = true → n.numSockets = 0) := by
  rw [generators]
  refine Generates.congr (Generates.append (Generates.append (Generates.cons (Generates.influxDBOnly (generates_scaled (plain_ascii (by decide))
      (plain_ascii (by decide)) (plain_ascii (by decide))))
    (Generates.cons (Generates.influxDBOnly (Generates.forEach generates_uncoreFrequencies))
    (Generates.cons (Generates.forEach generates_energy)
    (Generates.cons generates_memoryBandwidth
    (Generates.cons (Generates.forEach generates_socketMemoryBandwidth)
    (Generates.cons generates_nearMemory
    (Generates.cons generates_bandwidthRatio
    (Generates.cons (Generates.influxDBOnly (Generates.forEach (generates_stacked (plain_ascii (by decide))
      plain_requestRatios)))
    (Generates.cons (generates_upi (plain_ascii (by decide)))
    (Generates.cons (generates_upi (plain_ascii (by decide)))
    (Generates.cons (generates_upi (plain_ascii (by decide)))
    (Generates.cons (generates_upi (plain_ascii (by decide)))
    (Generates.cons (generates_cstate (plain_ascii (by decide)) (plain_ascii (by decide)) (plain_ascii (by decide)))
    (Generates.cons (generates_cstate (plain_ascii (by decide)) (plain_ascii (by decide)) (plain_ascii (by decide)))
    (Generates.cons generates_derivedIPC
    (Generates.cons (Generates.influxDBOnly (Generates.forEach (generates_stacked (plain_ascii (by decide))
      plain_coreStalls)))
    (Generates.cons (generates_derived (plain_ascii (by decide)) (plain_ascii (by decide))
      (plain_ascii (by decide)) (plain_ascii (by decide)))
    (Generates.cons (generates_derived (plain_ascii (by decide)) (plain_ascii (by decide))
      (plain_ascii (by decide)) (plain_ascii (by decide)))
    (Generates.cons (generates_derived (plain_ascii (by decide)) (plain_ascii (by decide))
      (plain_ascii (by decide)) (plain_ascii (by decide)))
    Generates.nil))))))))))))))))))) (generates_million (by simp) plain_millions))
    (Generates.cons (generates_accelerators plain) Generates.nil)) ?_ ?_
  · constructor
    · intro few
      obtain ⟨⟨⟨-, dies, -, sockets, -, -, -, -, links, -, -, -, cStates, -⟩, -⟩, devs, -⟩ := few
      exact ⟨sockets, dies, links, cStates, devs⟩
    · rintro ⟨sockets, dies, links, cStates, devs⟩
      have fewer : n.numSockets ≤ 27 := Nat.le_succ_of_le sockets
      refine ⟨⟨⟨fun _ => sockets, dies, fun _ => trivial, sockets, fun _ => trivial, fun _ => fewer, fewer,
        fun _ _ => by decide, links, links, links, links, cStates, cStates, sockets, fun _ _ => by decide,
        sockets, sockets, sockets, trivial⟩, sockets⟩, devs, trivial⟩
  · simp

end Generators

/-! ## The whole dashboard -/

section Whole

variable {m : Machine}

/-- What the panels of the dashboard are like. -/
theorem panels_cases (plain : m.PlainNames) (type : DashboardType) (ns nu nc : Int) :
    (∀ p ∈ panels m type ns nu nc, p.Clean) ∧
      ((∀ p ∈ panels m type ns nu nc, p.targets.length ≤ 27) ↔ FewTargets type m (counts m ns nu nc)) ∧
      ((panels m type ns nu nc).Pairwise Apart ↔
        (m.nearMemoryMetricsAvailable = true → (counts m ns nu nc).numSockets = 0)) := by
  obtain ⟨new, added, -, clean, few, apart⟩ := generates_layout type (counts m ns nu nc) plain {}
  have same : panels m type ns nu nc = new := added
  rw [same]
  exact ⟨fun p member => (clean p member).1, few, apart⟩

theorem content_title (plain : m.PlainNames) : isContent (title m) = true :=
  content_ascii_append (by decide) (isContent_plain plain.hostname)

/-- The dashboard is a document exactly when no panel runs out of letters for its targets. -/
theorem document_iff_fewTargets (plain : m.PlainNames) (type : DashboardType) (ns nu nc : Int) :
    (∃ value, Document value (getPCMDashboardJSON m type ns nu nc)) ↔
      FewTargets type m (counts m ns nu nc) := by
  obtain ⟨clean, few, -⟩ := panels_cases plain type ns nu nc
  rw [← few, getPCMDashboardJSON]
  constructor
  · rintro ⟨value, document⟩
    by_contra many
    push Not at many
    exact no_document_dashboard clean many value document
  · exact document_dashboard (content_title plain) clean

/-- The text of the dashboard is a document with a good dashboard. -/
def GoodDashboard (m : Machine) (type : DashboardType) (ns nu nc : Int) : Prop :=
  ∃ value, Document value (getPCMDashboardJSON m type ns nu nc) ∧ Good value

theorem goodDashboard_iff (plain : m.PlainNames) (type : DashboardType) (ns nu nc : Int) :
    GoodDashboard m type ns nu nc ↔ FewTargets type m (counts m ns nu nc) ∧
      (m.nearMemoryMetricsAvailable = true → (counts m ns nu nc).numSockets = 0) := by
  obtain ⟨clean, few, apart⟩ := panels_cases plain type ns nu nc
  constructor
  · rintro ⟨value, document, good⟩
    have fewTargets := (document_iff_fewTargets plain type ns nu nc).mp ⟨value, document⟩
    exact ⟨fewTargets, apart.mp ((good_iff (content_title plain) clean (few.mpr fewTargets) document).mp good)⟩
  · rintro ⟨fewTargets, free⟩
    obtain ⟨value, document⟩ := (document_iff_fewTargets plain type ns nu nc).mpr fewTargets
    exact ⟨value, document,
      (good_iff (content_title plain) clean (few.mpr fewTargets) document).mpr (apart.mpr free)⟩

/-- One socket with two links and two dies. -/
def oneSocket : Machine where
  numSockets := 1
  qpiLinksPerSocket := 2
  numUFSDies := 2
  nearMemoryMetricsAvailable := false
  hasUPI := true
  hostname := [104]
  accel := none

theorem plainNames_oneSocket (available : Bool) :
    { oneSocket with nearMemoryMetricsAvailable := available }.PlainNames where
  hostname := by
    change Plain [104]
    decide
  name := nofun
  counters := nofun

theorem goodDashboard_oneSocket : GoodDashboard oneSocket .influxDB (-1) (-1) (-1) := by
  refine (goodDashboard_iff (plainNames_oneSocket false) .influxDB (-1) (-1) (-1)).mpr ⟨?_, nofun⟩
  exact ⟨by decide, by decide, by decide, by decide, nofun⟩

/-- With near memory, its panels are on top of each other already for one socket. -/
theorem nearMemory_overlap :
    { oneSocket with nearMemoryMetricsAvailable := true }.PlainNames ∧
      ¬ GoodDashboard { oneSocket with nearMemoryMetricsAvailable := true } .influxDB (-1) (-1) (-1) := by
  refine ⟨plainNames_oneSocket true, ?_⟩
  rintro ⟨value, document, good⟩
  have plain := plainNames_oneSocket true
  obtain ⟨clean, few, apart⟩ := panels_cases plain .influxDB (-1) (-1) (-1)
  have fewTargets := (document_iff_fewTargets plain .influxDB (-1) (-1) (-1)).mp ⟨value, document⟩
  have places := (good_iff (content_title plain) clean (few.mpr fewTargets) document).mp good
  exact absurd (apart.mp places rfl) (by decide)

end Whole

end Pcm.Dashboard
