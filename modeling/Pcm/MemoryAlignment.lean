import Pcm.MemoryCsv

/-!
# Columns of the CSV output of `pcm-memory`

All columns but those of the HBM channels are given by what stays as it is during a run. The lines of a run
therefore match the headers when the HBM channels that have traffic are the same in all samples, and only
then.
-/

namespace Pcm.Memory

open StdString
open Raw (CsvOutputType choose)

/-! ## HBM channels that are left out -/

section Omitted

variable {setup : Setup} {sample : Sample} {skt : Nat}

theorem toBW_nonneg (nEvents : BitVec 64) : 0 ≤ toBW sample nEvents := by
  have time : (0 : ℚ) ≤ (sample.elapsedTime : ℚ) / 1000 := div_nonneg (Nat.cast_nonneg _) (by norm_num)
  have events : (0 : ℚ) ≤ ((nEvents * 64).toNat : ℚ) / 1000000 := div_nonneg (Nat.cast_nonneg _) (by norm_num)
  exact div_nonneg events time

theorem scalingFactor_nonneg : 0 ≤ scalingFactor setup := by
  rw [scalingFactor]
  split
  · norm_num
  · norm_num

/-- The value of an HBM channel. -/
def edcValue (setup : Setup) (sample : Sample) (skt : Nat) (position : EventPosition) (channel : Nat) : ℚ :=
  if setup.skipInactiveChannels ∧ sample.idle skt channel then -1
  else scalingFactor setup * toBW sample (sample.counter skt (·.edcCounter) channel position)

theorem edcChannel_Rd (md : SocketData) (channel : Nat) : (edcChannel setup sample skt md channel).EDC_Rd_chan =
    setAt md.EDC_Rd_chan channel (edcValue setup sample skt .read channel) := by
  rw [edcChannel, edcValue]
  split
  · rfl
  · rfl

theorem edcChannel_Wr (md : SocketData) (channel : Nat) : (edcChannel setup sample skt md channel).EDC_Wr_chan =
    setAt md.EDC_Wr_chan channel (edcValue setup sample skt .write channel) := by
  rw [edcChannel, edcValue]
  split
  · rfl
  · rfl

/-- A loop that sets the values of one channel after the other. -/
theorem foldl_setAt {step : SocketData → Nat → SocketData} {values : SocketData → Nat → ℚ} {value : Nat → ℚ}
    (each : ∀ md i, values (step md i) = setAt (values md) i (value i)) (md : SocketData) (n i : Nat) :
    values ((List.range n).foldl step md) i = if i < n then value i else values md i := by
  induction n with
  | zero => rfl
  | succ n ih =>
      rw [List.range_succ, List.foldl_append, List.foldl_cons, List.foldl_nil, each, setAt]
      by_cases last : i = n
      · subst last
        rw [if_pos rfl, if_pos (Nat.lt_succ_self i)]
      · rw [if_neg last, ih]
        by_cases less : i < n
        · rw [if_pos less, if_pos (Nat.lt_succ_of_lt less)]
        · rw [if_neg less, if_neg (by omega)]

/-- A loop keeps what its steps keep. -/
theorem foldl_keeps {β : Type} {step : SocketData → Nat → SocketData} {part : SocketData → β}
    (each : ∀ md i, part (step md i) = part md) (md : SocketData) (is : List Nat) :
    part (is.foldl step md) = part md := by
  induction is generalizing md with
  | nil => rfl
  | cons i is ih => rw [List.foldl_cons, ih, each]

/-- The values of the HBM channels. -/
def edcValues (md : SocketData) : (Nat → ℚ) × (Nat → ℚ) := (md.EDC_Rd_chan, md.EDC_Wr_chan)

theorem edcValues_addTraffic (channel : Nat) (c : ChannelCounts) (md : SocketData) :
    edcValues (addTraffic setup sample channel c md) = edcValues md := by
  rw [addTraffic]
  split
  · rfl
  · rfl

theorem edcValues_addMetrics (channel : Nat) (c : ChannelCounts) (md : SocketData) :
    edcValues (addMetrics setup sample skt channel c md) = edcValues md := by
  rw [addMetrics]
  cases setup.metrics with
  | partialWrites =>
      simp only
      split
      · rfl
      · rfl
  | pmem => rfl
  | pmemMemoryMode => rfl
  | pmemMixedMode => rfl

theorem edcValues_imcChannel (md : SocketData) (channel : Nat) :
    edcValues (imcChannel setup sample skt md channel) = edcValues md := by
  rw [imcChannel]
  split
  · rfl
  · rw [edcValues_addMetrics, edcValues_addTraffic]

theorem edcValues_imcTotals (md : SocketData) : edcValues (imcTotals setup sample skt md) = edcValues md := by
  rw [imcTotals]
  split
  · rfl
  · rfl

theorem edcValues_pmmTotals (md : SocketData) : edcValues (pmmTotals setup sample skt md) = edcValues md := by
  rw [pmmTotals]
  split
  · rfl
  · rfl

theorem edcValues_nearMemory (md : SocketData) : edcValues (nearMemory setup sample skt md) = edcValues md := by
  simp only [nearMemory]
  split_ifs
  all_goals rfl

theorem edcValues_cxlPort (md : SocketData) (p : Nat) :
    edcValues (cxlPort setup sample skt md p) = edcValues md := by
  rw [cxlPort]
  split
  · rfl
  · rfl

theorem edcValues_socketData :
    edcValues (socketData setup sample skt) = edcValues (edcChannels setup sample skt {}) := by
  rw [socketData, foldl_keeps edcValues_cxlPort, edcValues_nearMemory, edcValues_pmmTotals,
    edcValues_imcTotals, foldl_keeps edcValues_imcChannel]

/-- An HBM channel is left out of a line when it is skipped for its lack of traffic. -/
theorem omitted_socketData (hbm : setup.hbm = true) {channel : Nat} (less : channel < maxEdcChannels) :
    omitted (socketData setup sample skt) channel ↔
      setup.skipInactiveChannels = true ∧ sample.idle skt channel := by
  have values : edcValues (socketData setup sample skt) = _ := edcValues_socketData
  rw [edcChannels, if_pos hbm] at values
  obtain ⟨rd, wr⟩ := Prod.mk.inj values
  rw [omitted, rd, wr, foldl_setAt edcChannel_Rd, foldl_setAt edcChannel_Wr, if_pos less, if_pos less,
    edcValue, edcValue]
  by_cases skipped : setup.skipInactiveChannels = true ∧ sample.idle skt channel
  · rw [if_pos skipped, if_pos skipped]
    exact ⟨fun _ => skipped, fun _ => ⟨by norm_num, by norm_num⟩⟩
  · rw [if_neg skipped, if_neg skipped]
    refine ⟨fun negative => ?_, fun both => absurd both skipped⟩
    exact absurd negative.1 (not_lt.mpr (mul_nonneg scalingFactor_nonneg (toBW_nonneg _)))

end Omitted

/-! ## Names of the columns -/

/-- The headers of a call have the names of what it prints. -/
def Choice.Labelled (choice : Choice) : Prop :=
  choice.header1 = choice.data.map Quantity.owner ∧ choice.header2 = choice.data.map Quantity.name

section Labelled

variable (setup : Setup) (md : SocketData) (skt : Nat)

theorem forall_mem_ite {c : Prop} [Decidable c] {P : Choice → Prop} {calls : List Choice}
    (each : ∀ choice ∈ calls, P choice) : ∀ choice ∈ (if c then calls else []), P choice := by
  split
  · exact each
  · exact nofun

theorem labelled_channelChoices (channel : Nat) :
    ∀ choice ∈ channelChoices setup skt channel, choice.Labelled := by
  rw [channelChoices, List.forall_mem_cons]
  refine ⟨⟨rfl, rfl⟩, forall_mem_ite ?_⟩
  rw [List.forall_mem_singleton]
  exact ⟨rfl, rfl⟩

theorem labelled_imcChoices : ∀ choice ∈ imcChoices setup skt, choice.Labelled := by
  refine forall_mem_ite (fun choice member => ?_)
  obtain ⟨channel, -, inside⟩ := List.mem_flatMap.mp member
  exact labelled_channelChoices setup skt channel choice inside

theorem labelled_memoryChoices : ∀ choice ∈ memoryChoices setup skt, choice.Labelled := by
  rw [memoryChoices, List.forall_mem_cons]
  refine ⟨⟨rfl, rfl⟩, forall_mem_ite ?_⟩
  rw [List.forall_mem_singleton]
  exact ⟨rfl, rfl⟩

theorem labelled_nearMemoryChoices : ∀ choice ∈ nearMemoryChoices setup skt, choice.Labelled := by
  rw [nearMemoryChoices, List.forall_mem_append, List.forall_mem_append]
  refine ⟨⟨forall_mem_ite ?_, forall_mem_ite ?_⟩, forall_mem_ite (fun choice member => ?_)⟩
  · rw [List.forall_mem_singleton]
    exact ⟨rfl, rfl⟩
  · rw [List.forall_mem_singleton]
    exact ⟨rfl, rfl⟩
  · obtain ⟨c, -, rfl⟩ := List.mem_map.mp member
    exact ⟨rfl, rfl⟩

theorem labelled_mixedChoices : ∀ choice ∈ mixedChoices setup skt, choice.Labelled := by
  refine forall_mem_ite ?_
  rw [List.forall_mem_singleton]
  exact ⟨rfl, rfl⟩

theorem labelled_partialChoices : ∀ choice ∈ partialChoices setup skt, choice.Labelled := by
  refine forall_mem_ite ?_
  rw [List.forall_mem_singleton]
  exact ⟨rfl, rfl⟩

theorem labelled_edcChoices : ∀ choice ∈ edcChoices setup md skt, choice.Labelled := by
  refine forall_mem_ite (fun choice member => ?_)
  obtain ⟨channel, -, inside⟩ := List.mem_flatMap.mp member
  split at inside
  · cases inside
  · rw [List.mem_singleton.mp inside]
    exact ⟨rfl, rfl⟩

theorem labelled_hbmChoices : ∀ choice ∈ hbmChoices setup md skt, choice.Labelled := by
  refine forall_mem_ite ?_
  rw [List.forall_mem_append, List.forall_mem_singleton]
  exact ⟨labelled_edcChoices setup md skt, rfl, rfl⟩

theorem labelled_cxlChoices : ∀ choice ∈ cxlChoices setup skt, choice.Labelled := by
  refine forall_mem_ite (fun choice member => ?_)
  obtain ⟨port, -, rfl⟩ := List.mem_map.mp member
  rw [cxlChoice]
  split
  · exact ⟨rfl, rfl⟩
  · exact ⟨rfl, rfl⟩

theorem labelled_socketChoices : ∀ choice ∈ socketChoices setup md skt, choice.Labelled := by
  simp only [socketChoices, List.forall_mem_append, List.forall_mem_singleton]
  exact ⟨⟨⟨⟨⟨⟨⟨labelled_imcChoices setup skt, labelled_memoryChoices setup skt⟩,
    labelled_nearMemoryChoices setup skt⟩, labelled_mixedChoices setup skt⟩,
    labelled_partialChoices setup skt⟩, rfl, rfl⟩, labelled_hbmChoices setup md skt⟩,
    labelled_cxlChoices setup skt⟩

theorem labelled_systemChoices : ∀ choice ∈ systemChoices setup, choice.Labelled := by
  rw [systemChoices, List.forall_mem_append, List.forall_mem_append]
  refine ⟨⟨forall_mem_ite ?_, forall_mem_ite ?_⟩, ?_⟩
  all_goals
    rw [List.forall_mem_singleton]
    exact ⟨rfl, rfl⟩

end Labelled

theorem labelled_choices (p : Printed) : ∀ choice ∈ choices p, choice.Labelled := by
  rw [choices, List.cons_append, List.forall_mem_cons, List.forall_mem_append]
  refine ⟨⟨rfl, rfl⟩, fun choice member => ?_, labelled_systemChoices p.setup⟩
  obtain ⟨skt, -, inside⟩ := List.mem_flatMap.mp member
  exact labelled_socketChoices p.setup (p.md skt) skt choice inside

/-! ## Lines -/

/-- The quantities of a line. -/
def columns (p : Printed) : List Quantity := (choices p).flatMap (·.data)

section Lines

variable (p : Printed)

theorem data_line : display_bandwidth_csv p .data = (columns p).map (fun q => .value q (q.text p)) := by
  rw [display_bandwidth_csv, columns, List.map_flatMap]
  rfl

theorem header1_line : display_bandwidth_csv p .header1 = (columns p).map (fun q => .label q.owner) := by
  rw [display_bandwidth_csv, columns, List.map_flatMap]
  refine List.flatMap_congr (fun choice member => ?_)
  calc choice.header1.map Cell.label
    _ = (choice.data.map Quantity.owner).map Cell.label := by rw [(labelled_choices p choice member).1]
    _ = choice.data.map (fun q => .label q.owner) := List.map_map ..

theorem header2_line : display_bandwidth_csv p .header2 = (columns p).map (fun q => .label q.name) := by
  rw [display_bandwidth_csv, columns, List.map_flatMap]
  refine List.flatMap_congr (fun choice member => ?_)
  calc choice.header2.map Cell.label
    _ = (choice.data.map Quantity.name).map Cell.label := by rw [(labelled_choices p choice member).2]
    _ = choice.data.map (fun q => .label q.name) := List.map_map ..

end Lines

/-- A line of data has a field for each of the headers, and it is that of the quantity which they name. -/
def Matches (p : Printed) (header1 header2 row : List Cell) : Prop :=
  header1.length = row.length ∧ header2.length = row.length ∧
    ∀ (i : Nat) (cell : Cell), row[i]? = some cell → ∃ q : Quantity, cell = .value q (q.text p) ∧
      header1[i]? = some (.label q.owner) ∧ header2[i]? = some (.label q.name)

/-- The names of the quantities in the headers. -/
def Quantity.label (q : Quantity) : Bytes × Bytes := (q.owner, q.name)

/-- A line of data matches headers of other data when the names of their quantities are the same. -/
theorem matches_iff (p p' : Printed) :
    Matches p' (display_bandwidth_csv p .header1) (display_bandwidth_csv p .header2)
      (display_bandwidth_csv p' .data) ↔
    (columns p).map Quantity.label = (columns p').map Quantity.label := by
  rw [header1_line, header2_line, data_line]
  refine ⟨fun matching => ?_, fun same => ?_⟩
  · obtain ⟨length, -, named⟩ := matching
    rw [List.length_map, List.length_map] at length
    refine List.ext_getElem? (fun i => ?_)
    rw [List.getElem?_map, List.getElem?_map]
    rcases here : (columns p')[i]? with - | q
    · rw [List.getElem?_eq_none_iff] at here
      rw [List.getElem?_eq_none (by omega)]
    · obtain ⟨q', isCell, owner, name⟩ := named i _ (by rw [List.getElem?_map, here, Option.map_some])
      obtain ⟨rfl, -⟩ := Cell.value.inj isCell
      rw [List.getElem?_map] at owner name
      obtain ⟨old, there, sameOwner⟩ := Option.map_eq_some_iff.mp owner
      rw [there, Option.map_some] at name
      rw [there, Option.map_some, Option.map_some, Quantity.label, Cell.label.inj sameOwner,
        Cell.label.inj (Option.some.inj name)]
      rfl
  · have length : (columns p).length = (columns p').length := by
      have lengths := congrArg List.length same
      rwa [List.length_map, List.length_map] at lengths
    refine ⟨by rw [List.length_map, List.length_map, length], by rw [List.length_map, List.length_map, length],
      fun i cell here => ?_⟩
    rw [List.getElem?_map] at here
    obtain ⟨q, there, rfl⟩ := Option.map_eq_some_iff.mp here
    have label := congrArg (fun all => all[i]?) same
    rw [List.getElem?_map, List.getElem?_map, there] at label
    obtain ⟨old, inOld, sameLabel⟩ := Option.map_eq_some_iff.mp label
    obtain ⟨owner, name⟩ := Prod.mk.inj sameLabel
    refine ⟨q, rfl, ?_, ?_⟩
    · rw [List.getElem?_map, inOld, Option.map_some, owner]
    · rw [List.getElem?_map, inOld, Option.map_some, name]

/-! ## Columns of HBM channels -/

section Columns

variable {p p' : Printed}

/-- Only the columns of an HBM channel have its name. -/
theorem eq_of_label {q : Quantity} {skt channel : Nat}
    (same : q.label = (Quantity.socket skt (.edcRead channel)).label) :
    q = .socket skt (.edcRead channel) := by
  obtain ⟨owner, name⟩ := Prod.mk.inj same
  cases q with
  | date => cases owner
  | time => cases owner
  | system item => cases item <;> cases congrArg List.head? name
  | socket s item =>
      have sockets : s = skt := decimal_injective (List.append_cancel_left owner)
      subst sockets
      cases item with
      | edcRead c =>
          have text := List.append_cancel_right name
          rw [decimal_injective (List.append_cancel_left text)]
      | edcWrite c =>
          have read : (ascii "Read").getLast? = some 100 := by decide
          have write : (ascii "Write").getLast? = some 101 := by decide
          have last := congrArg List.getLast? name
          simp only [Quantity.name, Item.name, List.getLast?_append, read, write, Option.some_or] at last
          exact absurd (Option.some.inj last) (by decide)
      | _ => cases congrArg List.head? name

/-- The columns of some calls. -/
def dataOf (calls : List Choice) : List Quantity := calls.flatMap (·.data)

theorem dataOf_append (a b : List Choice) : dataOf (a ++ b) = dataOf a ++ dataOf b := List.flatMap_append

theorem dataOf_cons (choice : Choice) (calls : List Choice) :
    dataOf (choice :: calls) = choice.data ++ dataOf calls := List.flatMap_cons

theorem dataOf_flatMap {α : Type} (f : α → List Choice) (xs : List α) :
    dataOf (xs.flatMap f) = xs.flatMap (fun x => dataOf (f x)) := List.flatMap_assoc

theorem dataOf_map {α : Type} (f : α → Choice) (xs : List α) :
    dataOf (xs.map f) = xs.flatMap (fun x => (f x).data) := List.flatMap_map ..

theorem notMem_cxlChoice {setup : Setup} {s skt channel port : Nat} :
    .socket skt (.edcRead channel) ∉ (cxlChoice setup s port).data := by
  rw [cxlChoice]
  split
  · simp [ofSocket]
  · simp [ofSocket]

theorem mem_socketChoices {setup : Setup} {md : SocketData} {s skt channel : Nat} :
    .socket skt (.edcRead channel) ∈ dataOf (socketChoices setup md s) ↔
      skt = s ∧ setup.hbm = true ∧ setup.showChannelOutput = true ∧ channel < maxEdcChannels ∧
        ¬ omitted md channel := by
  have nothing : dataOf [] = [] := rfl
  simp only [socketChoices, imcChoices, channelChoices, memoryChoices, nearMemoryChoices, mixedChoices,
    partialChoices, hbmChoices, edcChoices, cxlChoices, ofSocket, dataOf_append, dataOf_cons,
    dataOf_flatMap, dataOf_map, apply_ite dataOf, nothing]
  simp [notMem_cxlChoice]
  tauto

/-- An HBM channel has columns where it is not left out. -/
theorem mem_columns {skt channel : Nat} : .socket skt (.edcRead channel) ∈ columns p ↔
    skt < p.setup.numSockets ∧ p.setup.hbm = true ∧ p.setup.showChannelOutput = true ∧
      channel < maxEdcChannels ∧ ¬ omitted (p.md skt) channel := by
  have system : .socket skt (.edcRead channel) ∉ dataOf (systemChoices p.setup) := by
    simp [systemChoices, dataOf]
  change _ ∈ dataOf (choices p) ↔ _
  rw [choices, List.cons_append, dataOf_cons, dataOf_append, dataOf_flatMap]
  simp only [List.mem_append, List.mem_flatMap, List.mem_range, mem_socketChoices, system, or_false,
    printDateForCSV]
  refine ⟨?_, fun there => Or.inr ⟨skt, there.1, rfl, there.2⟩⟩
  rintro (date | ⟨s, less, rfl, there⟩)
  · simp at date
  · exact ⟨less, there⟩

theorem edcChoices_congr {setup : Setup} {md md' : SocketData} {skt : Nat}
    (same : ∀ channel < maxEdcChannels, (omitted md channel ↔ omitted md' channel)) :
    edcChoices setup md skt = edcChoices setup md' skt := by
  rw [edcChoices, edcChoices]
  congr 1
  refine List.flatMap_congr (fun channel member => ?_)
  exact if_congr (same channel (List.mem_range.mp member)) rfl rfl

/-- The columns depend on the samples only for the HBM channels that are left out. -/
theorem columns_congr (setup : p'.setup = p.setup)
    (same : p.setup.hbm = true → p.setup.showChannelOutput = true → ∀ skt < p.setup.numSockets,
      ∀ channel < maxEdcChannels, (omitted (p.md skt) channel ↔ omitted (p'.md skt) channel)) :
    columns p = columns p' := by
  have each : ∀ skt ∈ List.range p.setup.numSockets,
      socketChoices p.setup (p.md skt) skt = socketChoices p.setup (p'.md skt) skt := by
    intro skt member
    have hbm : hbmChoices p.setup (p.md skt) skt = hbmChoices p.setup (p'.md skt) skt := by
      rw [hbmChoices, hbmChoices]
      split
      · rename_i available
        rcases shown : p.setup.showChannelOutput with - | -
        · rw [edcChoices, edcChoices, shown]
          rfl
        · rw [edcChoices_congr (same available shown skt (List.mem_range.mp member))]
      · rfl
    rw [socketChoices, socketChoices, hbm]
  rw [columns, columns, choices, choices, setup, List.flatMap_congr each]

end Columns

/-! ## Runs -/

section Runs

variable (setup : Setup) (format : Nat → ℚ → Bytes)

/-- What the lines of a sample are printed from. -/
def Dated.printed (s : Dated) : Printed := Memory.printed setup format s.date s.time s.sample

/-- After the headers there are only lines of data. -/
theorem run_false (samples : List Dated) : run setup format false samples =
    samples.map (fun s => display_bandwidth_csv (s.printed setup format) .data) := by
  induction samples with
  | nil => rfl
  | cons s later ih =>
      rw [List.map_cons, ← ih]
      rfl

theorem run_true (first : Dated) (later : List Dated) : run setup format true (first :: later) =
    display_bandwidth_csv (first.printed setup format) .header1 ::
      display_bandwidth_csv (first.printed setup format) .header2 ::
        (first :: later).map (fun s => display_bandwidth_csv (s.printed setup format) .data) := by
  rw [List.map_cons, ← run_false]
  rfl

/-- The same HBM channels have traffic in both samples, as far as this can be seen in the columns. -/
def Steady (first s : Sample) : Prop :=
  setup.hbm = true → setup.showChannelOutput = true → setup.skipInactiveChannels = true →
    ∀ skt < setup.numSockets, ∀ channel < maxEdcChannels, (s.idle skt channel ↔ first.idle skt channel)

variable {setup}

/-- A line matches the headers of another sample if the same HBM channels have traffic. -/
theorem matches_iff_steady (first s : Dated) :
    Matches (s.printed setup format) (display_bandwidth_csv (first.printed setup format) .header1)
        (display_bandwidth_csv (first.printed setup format) .header2)
        (display_bandwidth_csv (s.printed setup format) .data) ↔
      Steady setup first.sample s.sample := by
  rw [matches_iff]
  refine ⟨fun same hbm shown skip skt inSockets channel known => ?_, fun steady => ?_⟩
  · have hasColumns : ∀ d : Dated, .socket skt (.edcRead channel) ∈ columns (d.printed setup format) ↔
        ¬ d.sample.idle skt channel := by
      intro d
      rw [mem_columns]
      change skt < setup.numSockets ∧ setup.hbm = true ∧ setup.showChannelOutput = true ∧ _ ∧
        ¬ omitted (socketData setup d.sample skt) channel ↔ _
      rw [omitted_socketData hbm known]
      simp only [inSockets, hbm, shown, skip, known, true_and]
    have moved : ∀ {a b : Printed}, (columns a).map Quantity.label = (columns b).map Quantity.label →
        .socket skt (.edcRead channel) ∈ columns a → .socket skt (.edcRead channel) ∈ columns b := by
      intro a b sameLabels member
      have inLabels := List.mem_map_of_mem (f := Quantity.label) member
      rw [sameLabels] at inLabels
      obtain ⟨q, inside, sameLabel⟩ := List.mem_map.mp inLabels
      rwa [eq_of_label sameLabel] at inside
    rw [← not_iff_not, ← hasColumns, ← hasColumns]
    exact ⟨moved same.symm, moved same⟩
  · have columns : columns (first.printed setup format) = columns (s.printed setup format) := by
      refine columns_congr rfl (fun hbm shown skt inSockets channel known => ?_)
      change omitted (socketData setup first.sample skt) channel ↔
        omitted (socketData setup s.sample skt) channel
      have available : setup.hbm = true := hbm
      rw [omitted_socketData available known, omitted_socketData available known]
      exact and_congr_right (fun skip => (steady hbm shown skip skt inSockets channel known).symm)
    rw [columns]

/-- Every line of data of a run matches its two headers. -/
def RunMatches (setup : Setup) (format : Nat → ℚ → Bytes) (samples : List Dated) : Prop :=
  ∃ header1 header2 rows, run setup format true samples = header1 :: header2 :: rows ∧
    List.Forall₂ (fun s row => Matches (s.printed setup format) header1 header2 row) samples rows

theorem runMatches_iff_forall (first : Dated) (later : List Dated) :
    RunMatches setup format (first :: later) ↔ ∀ s ∈ first :: later, Steady setup first.sample s.sample := by
  have rows : ∀ samples : List Dated, List.Forall₂ (fun s row => Matches (s.printed setup format)
      (display_bandwidth_csv (first.printed setup format) .header1)
      (display_bandwidth_csv (first.printed setup format) .header2) row) samples
      (samples.map (fun s => display_bandwidth_csv (s.printed setup format) .data)) ↔
        ∀ s ∈ samples, Steady setup first.sample s.sample := by
    intro samples
    simp only [List.forall₂_map_right_iff, List.forall₂_same, matches_iff_steady]
  rw [← rows, RunMatches, run_true]
  refine ⟨?_, fun all => ⟨_, _, _, rfl, all⟩⟩
  rintro ⟨header1, header2, found, lines, all⟩
  obtain ⟨rfl, rest⟩ := List.cons.inj lines
  obtain ⟨rfl, rfl⟩ := List.cons.inj rest
  exact all

/-- The lines of a run match its headers if and only if the HBM channels that have traffic are those that
had traffic in the first sample. -/
theorem run_matches_iff (first : Dated) (later : List Dated) :
    RunMatches setup format (first :: later) ↔ ∀ s ∈ later, Steady setup first.sample s.sample := by
  rw [runMatches_iff_forall, List.forall_mem_cons]
  exact and_iff_right (fun _ _ _ _ _ _ _ => Iff.rfl)

end Runs

/-- One socket with HBM. -/
def hbmSetup : Setup := { cpuFamilyModel := .SPR, numSockets := 1, maxImcChannels := 0, hbm := true }

/-- A sample in which so much was read from the first HBM channel. -/
def hbmSample (reads : BitVec 64) : Dated where
  sample :=
    { uncState1 := fun _ => {}
      uncState2 := fun _ => { edcCounter := fun channel counter =>
        if channel = 0 ∧ counter = EventPosition.read.index then reads else 0 }
      elapsedTime := 1000 }
  date := ascii "2024-01-01"
  time := ascii "00:00:00.000"

/-- `setw` with a value that is less than half a hundredth. -/
def zeroText (width : Nat) (_ : ℚ) : Bytes := List.replicate (width - 4) 32 ++ ascii "0.00"

/-- An HBM channel that has no traffic any more. -/
theorem run_mismatch : ¬ RunMatches hbmSetup zeroText [hbmSample 1, hbmSample 0] := by
  rw [runMatches_iff_forall]
  intro steady
  have same := steady (hbmSample 0) (by simp) rfl rfl rfl 0 (by decide) 0 (by decide)
  have idle : (hbmSample 0).sample.idle 0 0 := by decide
  have busy : ¬ (hbmSample 1).sample.idle 0 0 := by decide
  exact busy (same.mp idle)

end Pcm.Memory
