import Pcm.LoadEvents
import Pcm.Lib.Throwing

/-!
# Numbers of event names

`load_events` numbers the names of counters in two ways: in the record of a counter, and in `nameMap`. Under a
vertical name it stores the number of names before it less one, which is the record's number less one. So the two
differ for every counter.
-/

namespace Pcm.LoadEvents

open StdString Iio Throwing

variable {ofm : Bytes → PerfmonField} {takes : Bytes → Bool} {unread : List (BitVec 64) → BitVec 64}

/-! ## Names -/

/-- The names that a line gives, in their order. -/
def namesOf (ofm : Bytes → PerfmonField) (line : Bytes) : List NameItem := (items line).filterMap (nameOf ofm)

theorem naming_of_items {p p' : Parse} {items : List Bytes}
    (parsed : items.foldlM (parseItem ofm takes unread) p = .ok p') :
    (items.filterMap (nameOf ofm)).foldlM step p.naming = .ok p'.naming := by
  induction items generalizing p with
  | nil =>
      rw [← Except.ok.inj parsed]
      rfl
  | cons item rest ih =>
      obtain ⟨middle, first, later⟩ := bind_eq_ok parsed
      have named := (parseItem_ok first).naming
      cases name : nameOf ofm item with
      | none =>
          rw [name] at named
          rw [List.filterMap_cons_none name, Except.ok.inj named]
          exact ih later
      | some given =>
          rw [name] at named
          rw [List.filterMap_cons_some name, foldlM_cons_ok named]
          exact ih later

/-- What a counter's line adds. -/
theorem loadLine_ok {l l' : Loaded} {line : Bytes} (isLine : isCounterLine line = true)
    (loaded : loadLine ofm takes unread l line = .ok l') :
    ∃ p, (items line).foldlM (parseItem ofm takes unread)
        { naming := { nameMap := l.nameMap }, values := { type := l.type }, earlier := l.earlier } = .ok p ∧
      l' = { nameMap := p.naming.nameMap
             reports := l.reports ++ [⟨line, p.naming.names, p.values, p.numbers⟩]
             type := p.values.type
             earlier := p.earlier } := by
  rw [loadLine, if_pos isLine] at loaded
  obtain ⟨p, parsed, result⟩ := bind_eq_ok loaded
  exact ⟨p, parsed, (Except.ok.inj result).symm⟩

theorem loadLine_other {l l' : Loaded} {line : Bytes} (other : isCounterLine line = false)
    (loaded : loadLine ofm takes unread l line = .ok l') : l' = l := by
  rw [loadLine, if_neg (by simp [other])] at loaded
  exact (Except.ok.inj loaded).symm

/-- Each line of a counter makes one record, in the order of the lines. -/
theorem lines_of_reports {lines : List Bytes} {l : Loaded} (loaded : loadLines ofm takes unread lines = .ok l) :
    l.reports.map Report.line = lines.filter isCounterLine := by
  refine foldlM_invariant (I := fun done s => s.reports.map Report.line = done.filter isCounterLine) ?_ rfl loaded
  intro done line s t _ holds first
  rw [List.filter_append]
  cases isLine : isCounterLine line with
  | true =>
      obtain ⟨p, _, rfl⟩ := loadLine_ok isLine first
      simp [holds, isLine]
  | false =>
      rw [loadLine_other isLine first]
      simp [holds, isLine]

/-! ## Numbers -/

/-- The names of a list, each where it comes first. -/
def firsts (names : List Bytes) : List Bytes :=
  names.foldl (fun found name => if name ∈ found then found else found ++ [name]) []

/-- The records' numbers are those of `nameMap`, which are places: of a horizontal name among the horizontal names in
the order they come first, and of a vertical name among those of its horizontal name. -/
structure Numbered (l : Loaded) : Prop where
  stored : ∀ r ∈ l.reports, ∃ vertical : CounterValueMap,
    l.nameMap.lookup r.names.h_event_name = some (r.names.h_id, vertical) ∧
      vertical.lookup r.names.v_event_name = some r.names.v_id
  horizontal : ∀ i name, (firsts (l.reports.map fun r => r.names.h_event_name))[i]? = some name →
    (l.nameMap.lookup name).map Prod.fst = some (BitVec.ofNat 32 i)
  horizontals : l.nameMap.length = (firsts (l.reports.map fun r => r.names.h_event_name)).length
  vertical : ∀ name h_id vertical, l.nameMap.lookup name = some (h_id, vertical) →
    (vertical.map Prod.snd).Perm ((List.range vertical.length).map (BitVec.ofNat 32))

/-- The last record has another number than `nameMap` has for its names. -/
def Misnumbered (l : Loaded) : Prop :=
  ∀ r, l.reports.getLast? = some r → ∃ h_id vertical stored,
    l.nameMap.lookup r.names.h_event_name = some (h_id, vertical) ∧
      vertical.lookup r.names.v_event_name = some stored ∧ stored ≠ r.names.v_id

theorem pred_ne_pred_succ (n : Nat) : BitVec.ofNat 32 n - 1 ≠ BitVec.ofNat 32 (n + 1) - 1 := by
  have next : BitVec.ofNat 32 (n + 1) = BitVec.ofNat 32 n + 1 := BitVec.ofNat_add n 1
  rw [next]
  generalize BitVec.ofNat 32 n = x
  bv_omega

/-- After a horizontal and a vertical name the record's number is one more than the stored one. -/
theorem misnumbered_names {n n' : Naming} {h v : Bytes} (named : [.h h, .v v].foldlM step n = .ok n') :
    n'.names.h_event_name = h ∧ n'.names.v_event_name = v ∧ ∃ h_id vertical stored,
      n'.nameMap.lookup h = some (h_id, vertical) ∧ vertical.lookup v = some stored ∧ stored ≠ n'.names.v_id := by
  have second : parseVName (parseHName n h) v = .ok n' := by
    rw [foldlM_cons_ok (t := parseHName n h) rfl] at named
    obtain ⟨last, named, result⟩ := bind_eq_ok named
    rw [← Except.ok.inj result]
    exact named
  unfold parseVName at second
  have current : (parseHName n h).h_name = h := rfl
  rw [current] at second
  generalize definition : ((parseHName n h).nameMap.lookup h).getD (0, []) = d at second
  dsimp only at second
  split at second
  · cases second
  · rw [← Except.ok.inj second]
    refine ⟨rfl, rfl, d.1, d.2.put v (BitVec.ofNat 32 d.2.length - 1), BitVec.ofNat 32 d.2.length - 1, ?_, ?_, ?_⟩
    · show ((parseHName n h).nameMap.assign h _).lookup h = _
      rw [KeyedMap.lookup_assign, if_pos (beq_self_eq_true h)]
    · simp [KeyedMap.put]
    · exact pred_ne_pred_succ d.2.length

/-- Every line of a counter gives a horizontal and then a vertical name. -/
def Named (ofm : Bytes → PerfmonField) (lines : List Bytes) : Prop :=
  ∀ line ∈ lines, isCounterLine line = true → ∃ h v, namesOf ofm line = [.h h, .v v]

theorem misnumbered_of_loaded {lines : List Bytes} {l : Loaded} (named : Named ofm lines)
    (loaded : loadLines ofm takes unread lines = .ok l) : Misnumbered l := by
  refine foldlM_invariant (I := fun _ s => Misnumbered s) ?_ ?_ loaded
  · intro _ line s t mem holds first
    cases isLine : isCounterLine line with
    | true =>
        obtain ⟨p, parsed, rfl⟩ := loadLine_ok isLine first
        obtain ⟨h, v, names⟩ := named line mem isLine
        have steps := naming_of_items parsed
        have given : (items line).filterMap (nameOf ofm) = [.h h, .v v] := names
        rw [given] at steps
        obtain ⟨horizontal, vertical, numbers⟩ := misnumbered_names steps
        intro r last
        rw [List.getLast?_concat] at last
        rw [← Option.some.inj last, horizontal, vertical]
        exact numbers
    | false =>
        rw [loadLine_other isLine first]
        exact holds
  · intro r last
    cases last

theorem loaded_empty {lines : List Bytes} {l : Loaded} (loaded : loadLines ofm takes unread lines = .ok l)
    (none : ∀ line ∈ lines, isCounterLine line = false) : l = {} := by
  refine foldlM_invariant (I := fun _ s => s = ({} : Loaded)) ?_ rfl loaded
  intro _ line s t mem holds first
  rw [loadLine_other (none line mem) first, holds]

theorem numbered_empty : Numbered {} where
  stored r mem := absurd mem List.not_mem_nil
  horizontal i name found := by cases found
  horizontals := rfl
  vertical name h_id vertical found := by cases found

/-- The numbers of a file are right if and only if it has no counters. -/
theorem numbered_iff (ofm : Bytes → PerfmonField) (takes : Bytes → Bool)
    (unread : List (BitVec 64) → BitVec 64) (content : Bytes) (l : Loaded)
    (named : Named ofm (Raw.getlines 10 [] content)) (loaded : load_events ofm takes unread content = .ok l) :
    Numbered l ↔ ∀ line ∈ Raw.getlines 10 [] content, isCounterLine line = false := by
  constructor
  · intro numbered line mem
    cases isLine : isCounterLine line with
    | false => rfl
    | true =>
        exfalso
        have counted : line ∈ l.reports.map Report.line := by
          rw [lines_of_reports loaded]
          exact List.mem_filter.mpr ⟨mem, isLine⟩
        obtain ⟨r, member, _⟩ := List.mem_map.mp counted
        obtain ⟨last, found⟩ : ∃ last, l.reports.getLast? = some last :=
          Option.isSome_iff_exists.mp (List.getLast?_isSome.mpr (List.ne_nil_of_mem member))
        obtain ⟨h_id, vertical, stored, horizontal, number, differs⟩ := misnumbered_of_loaded named loaded last found
        obtain ⟨others, same, right⟩ := numbered.stored last (List.mem_of_getLast? found)
        rw [horizontal] at same
        cases same
        rw [number] at right
        exact differs (Option.some.inj right)
  · intro none
    rw [loaded_empty loaded none]
    exact numbered_empty

/-- One counter, with the callback's fields of `pcm-iio`. -/
def oneCounter : Bytes := ascii "hname=a,vname=x"

def oneLoaded : Loaded where
  nameMap := [(ascii "a", 0, [(ascii "x", -1)])]
  reports := [⟨oneCounter, ⟨ascii "a", ascii "x", 0, 0⟩, { type := .invalid }, []⟩]
  type := .invalid
  earlier := [0, 0]

theorem oneCounter_loaded : load_events fieldOf (fun _ => true) (fun _ => 0) oneCounter = .ok oneLoaded := by
  decide +kernel

theorem oneCounter_named : Named fieldOf (Raw.getlines 10 [] oneCounter) := by
  have lines : Raw.getlines 10 [] oneCounter = [oneCounter] := by decide +kernel
  have names : namesOf fieldOf oneCounter = [.h (ascii "a"), .v (ascii "x")] := by decide +kernel
  intro line mem _
  rw [lines] at mem
  rw [List.mem_singleton.mp mem]
  exact ⟨ascii "a", ascii "x", names⟩

/-- The first counters of `opCode-6-106.txt`, with a comment before them. -/
def inboundFile : Bytes :=
  ascii "# Inbound (PCIe device DMA into system) payload events\n" ++
    ascii "ctr=0,unit=iio,ev_sel=0x83,umask=0x1,en=1,ch_mask=1,multiplier=4,hname=IB write,vname=Part0\n" ++
    ascii "ctr=1,unit=iio,ev_sel=0x83,umask=0x1,en=1,ch_mask=2,multiplier=4,hname=IB write,vname=Part1"

def inboundLoaded : Loaded := ((load_events fieldOf (fun _ => true) (fun _ => 0) inboundFile).toOption).getD {}

theorem inboundFile_loaded : load_events fieldOf (fun _ => true) (fun _ => 0) inboundFile = .ok inboundLoaded := by
  decide +kernel

/-- Two counters with the same horizontal name get wrong numbers; a file of comments has none to get wrong. -/
theorem numbered_inboundFile :
    inboundLoaded.reports.map (·.names.v_event_name) = [ascii "Part0", ascii "Part1"] ∧ ¬ Numbered inboundLoaded ∧
      Numbered {} := by
  have named : Named fieldOf (Raw.getlines 10 [] inboundFile) := by
    have names : ∀ line ∈ (Raw.getlines 10 [] inboundFile).filter isCounterLine,
        namesOf fieldOf line = [.h (ascii "IB write"), .v ((valueOf ((items line).getLastD [])))] := by
      decide +kernel
    intro line mem counted
    exact ⟨_, _, names line (List.mem_filter.mpr ⟨mem, counted⟩)⟩
  have comments : Named fieldOf (Raw.getlines 10 [] (ascii "# events\n\n# none")) := by
    have none : ∀ line ∈ Raw.getlines 10 [] (ascii "# events\n\n# none"), isCounterLine line = false := by
      decide +kernel
    intro line mem counted
    rw [none line mem] at counted
    cases counted
  refine ⟨by decide +kernel, ?_, ?_⟩
  · rw [numbered_iff fieldOf (fun _ => true) (fun _ => 0) inboundFile inboundLoaded named inboundFile_loaded]
    decide +kernel
  · refine (numbered_iff fieldOf (fun _ => true) (fun _ => 0) (ascii "# events\n\n# none") {} comments
      (by decide +kernel)).mpr ?_
    decide +kernel

/-- The record has the vertical number 0, and `nameMap` has 2^32 - 1. -/
theorem oneCounter_misnumbered :
    load_events fieldOf (fun _ => true) (fun _ => 0) oneCounter = .ok oneLoaded ∧
      Named fieldOf (Raw.getlines 10 [] oneCounter) ∧ ¬ Numbered oneLoaded := by
  refine ⟨oneCounter_loaded, oneCounter_named, ?_⟩
  intro numbered
  obtain ⟨vertical, found, number⟩ := numbered.stored _ (List.mem_singleton_self _)
  have held : oneLoaded.nameMap.lookup (ascii "a") = some (0, [(ascii "x", -1)]) := by decide +kernel
  have differs : ([(ascii "x", -1)] : CounterValueMap).lookup (ascii "x") ≠ some 0 := by decide +kernel
  rw [held] at found
  cases found
  exact differs number

end Pcm.LoadEvents
