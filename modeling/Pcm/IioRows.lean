import Pcm.IioListing
import Pcm.IioTables

/-!
# Rows of the tables of `pcm-iio`

For a listing whose first horizontal name has the most vertical names, `v_sort` has a row for each of these,
and in it one counter for each horizontal name that has a vertical name at this place.
-/

namespace Pcm.Iio

open StdString OrderedMap

/-! ## Sorting -/

/-- The counters at one place of the groups, with the numbers of their groups. -/
def column (groups : List (List IioCounter)) (i : Nat) : List (Nat × IioCounter) :=
  groups.zipIdx.filterMap (fun p => p.1[i]?.map (fun c => (p.2, c)))

/-- Rows from a number on. -/
def rowsFrom (start n : Nat) (row : Nat → List (Nat × IioCounter)) : Sorting :=
  (List.range' start n).map (fun i => (i, row i))

/-- The counters have the numbers of their places. -/
def Numbered (groups : List (List IioCounter)) : Prop :=
  ∀ j (g : List IioCounter), groups[j]? = some g → ∀ i (c : IioCounter), g[i]? = some c →
    c.counter.hId = j ∧ c.counter.vId = i

section Sorting

variable {groups : List (List IioCounter)} {g : List IioCounter} {c : IioCounter}

theorem upsert_rowsFrom {start n i : Nat} (low : start ≤ i) (high : i < start + n)
    {row : Nat → List (Nat × IioCounter)} (f : List (Nat × IioCounter) → List (Nat × IioCounter)) :
    upsert i [] f (rowsFrom start n row) =
      rowsFrom start n (fun k => if k = i then f (row k) else row k) := by
  induction n generalizing start with
  | zero => omega
  | succ n ih =>
      rw [rowsFrom, rowsFrom, List.range'_succ, List.map_cons, List.map_cons, upsert]
      by_cases same : i = start
      · subst same
        rw [if_neg (Nat.lt_irrefl i), if_pos rfl, if_pos rfl]
        congr 1
        refine List.map_congr_left (fun k member => ?_)
        have above := (List.mem_range'_1.mp member).1
        rw [if_neg (by omega)]
      · rw [if_neg (by omega), if_neg same, if_neg (fun other => same other.symm)]
        congr 1
        exact ih (by omega) (by omega)

theorem upsert_rowsFrom_end {n : Nat} {row : Nat → List (Nat × IioCounter)}
    (f : List (Nat × IioCounter) → List (Nat × IioCounter)) :
    upsert n [] f (rowsFrom 0 n row) = rowsFrom 0 (n + 1) (fun k => if k = n then f [] else row k) := by
  have below : ∀ entry ∈ rowsFrom 0 n row, entry.1 < n := by
    intro entry member
    obtain ⟨k, inRange, rfl⟩ := List.mem_map.mp member
    have less := (List.mem_range'_1.mp inRange).2
    omega
  have whole : upsert n [] f (rowsFrom 0 n row ++ []) = _ := upsert_append below
  rw [List.append_nil] at whole
  rw [whole, rowsFrom, rowsFrom, List.range'_concat, List.map_append]
  congr 1
  · refine List.map_congr_left (fun k member => ?_)
    have less := (List.mem_range'_1.mp member).2
    rw [if_neg (by omega)]
  · simp [upsert]

theorem column_snoc (i : Nat) :
    column (groups ++ [g]) i = column groups i ++ (g[i]?.map (fun c => (groups.length, c))).toList := by
  simp only [column, List.zipIdx_append, List.filterMap_append, Nat.zero_add]
  congr 1

theorem column_keys {i : Nat} : ∀ entry ∈ column groups i, entry.1 < groups.length := by
  intro entry member
  obtain ⟨p, inZip, isSome⟩ := List.mem_filterMap.mp member
  obtain ⟨c, -, rfl⟩ := Option.map_eq_some_iff.mp isSome
  have less := List.snd_lt_add_of_mem_zipIdx inZip
  simpa using less

/-- One more counter in the last group. -/
theorem column_more (i : Nat) : column (groups ++ [g ++ [c]]) i =
    if i = g.length then column (groups ++ [g]) i ++ [(groups.length, c)] else column (groups ++ [g]) i := by
  rw [column_snoc, column_snoc]
  split
  · rename_i last
    subst last
    simp
  · rename_i other
    rcases Nat.lt_or_gt_of_ne other with less | more
    · rw [List.getElem?_append_left less]
    · rw [List.getElem?_eq_none (by simp; omega), List.getElem?_eq_none (by omega)]

/-- The number of rows. -/
def rowCount (groups : List (List IioCounter)) : Nat := (groups.head?.map List.length).getD 0

theorem vSort_snoc (cs : List IioCounter) : vSort (cs ++ [c]) =
    upsert c.counter.vId [] (upsert c.counter.hId c (fun _ => c)) (vSort cs) := by
  rw [vSort, vSort, List.foldl_append]
  rfl

/-- A counter is added at the end of a row. -/
theorem upsert_column {i : Nat} : upsert groups.length c (fun _ => c) (column groups i) =
    column groups i ++ [(groups.length, c)] := by
  have whole : upsert groups.length c (fun _ => c) (column groups i ++ []) = _ := upsert_append column_keys
  rw [List.append_nil] at whole
  exact whole

theorem rowCount_cons (g : List IioCounter) : rowCount (g :: groups) = g.length := rfl

/-- The last group is complete as far as it has been read. -/
theorem vSort_more (sorted : vSort groups.flatten = rowsFrom 0 (rowCount groups) (column groups))
    (hIds : ∀ c ∈ g, c.counter.hId = groups.length)
    (vIds : ∀ i (c : IioCounter), g[i]? = some c → c.counter.vId = i)
    (short : groups ≠ [] → g.length ≤ rowCount groups) :
    vSort (groups ++ [g]).flatten = rowsFrom 0 (rowCount (groups ++ [g])) (column (groups ++ [g])) := by
  induction g using List.reverseRecOn with
  | nil =>
      have same : column (groups ++ [[]]) = column groups := by
        funext i
        rw [column_snoc]
        simp
      have count : rowCount (groups ++ [[]]) = rowCount groups := by
        cases groups <;> rfl
      rw [same, count, ← sorted]
      simp
  | append_singleton g c ih =>
      have before := ih (fun other member => hIds other (List.mem_append_left _ member))
        (fun i other here => vIds i other (by
          rw [List.getElem?_append_left (List.getElem?_eq_some_iff.mp here).1]
          exact here))
        (fun some => by
          have := short some
          rw [List.length_append] at this
          omega)
      have hId : c.counter.hId = groups.length := hIds c (by simp)
      have vId : c.counter.vId = g.length := vIds g.length c (by simp)
      have flat : (groups ++ [g ++ [c]]).flatten = (groups ++ [g]).flatten ++ [c] := by simp
      have row : column (groups ++ [g]) g.length = column groups g.length := by
        rw [column_snoc]
        simp
      have columns : column (groups ++ [g ++ [c]]) = fun k =>
          if k = g.length then column groups k ++ [(groups.length, c)] else column (groups ++ [g]) k := by
        funext k
        rw [column_more]
        split
        · rename_i same
          rw [same, row]
        · rfl
      rw [flat, vSort_snoc, before, hId, vId]
      cases groups with
      | nil =>
          rw [List.nil_append, rowCount_cons, upsert_rowsFrom_end, List.nil_append, rowCount_cons,
            List.length_append, List.length_singleton]
          rw [List.nil_append] at columns
          rw [columns]
          congr 1
      | cons first others =>
          have less : g.length < first.length := by
            have := short (List.cons_ne_nil _ _)
            rw [List.length_append, rowCount_cons] at this
            simp at this
            omega
          rw [columns]
          change upsert g.length [] _ (rowsFrom 0 first.length _) = rowsFrom 0 first.length _
          rw [upsert_rowsFrom (Nat.zero_le _) (by omega)]
          congr 1
          funext k
          split
          · rename_i same
            subst same
            rw [row, upsert_column]
          · rfl

/-- `v_sort` of counters that are listed group by group. -/
theorem vSort_groups (numbered : Numbered groups)
    (longest : ∀ g ∈ groups, g.length ≤ rowCount groups) :
    vSort groups.flatten = rowsFrom 0 (rowCount groups) (column groups) := by
  induction groups using List.reverseRecOn with
  | nil => rfl
  | append_singleton groups g ih =>
      have head : groups ≠ [] → rowCount (groups ++ [g]) = rowCount groups := by
        intro some
        cases groups with
        | nil => exact absurd rfl some
        | cons first others => rfl
      have before : vSort groups.flatten = rowsFrom 0 (rowCount groups) (column groups) := by
        refine ih (fun j other here => numbered j other ?_) (fun other member => ?_)
        · rw [List.getElem?_append_left (List.getElem?_eq_some_iff.mp here).1]
          exact here
        · rw [← head (List.ne_nil_of_mem member)]
          exact longest other (List.mem_append_left _ member)
      have last : (groups ++ [g])[groups.length]? = some g := by simp
      refine vSort_more before ?_ ?_ ?_
      · intro c member
        obtain ⟨i, here⟩ := List.getElem?_of_mem member
        exact (numbered _ g last i c here).1
      · intro i c here
        exact (numbered _ g last i c here).2
      · intro some
        rw [← head some]
        exact longest g (by simp)

end Sorting

/-! ## Results -/

section Results

variable {iios : List Socket} {measured : Nat → Nat → Nat → Nat}

/-- The sockets and stacks that are measured. -/
def sites (iios : List Socket) : List (Nat × Nat) :=
  iios.flatMap (fun socket => socket.stackList.map (fun stack => (socket.socketId, stack.unitId)))

theorem getSample_eq (ctr : Counter) (values : Nat → Nat → Nat) (results : Results) :
    getSample iios ctr values results = (sites iios).foldl
      (fun r site => r.set site.1 site.2 (ctr.hId, ctr.vId) (values site.1 site.2)) results := by
  rw [getSample, sites, List.foldl_flatMap]
  congr 1
  funext r socket
  rw [List.foldl_map]

/-- What was measured at a site is what is stored, also where the site comes twice. -/
theorem foldl_set {ids : Nat × Nat} {values : Nat → Nat → Nat} {site : Nat × Nat}
    (all : List (Nat × Nat)) (results : Results)
    (visited : site ∈ all ∨ results site.1 site.2 ids = values site.1 site.2) :
    (all.foldl (fun r other => r.set other.1 other.2 ids (values other.1 other.2)) results)
      site.1 site.2 ids = values site.1 site.2 := by
  induction all generalizing results with
  | nil => exact visited.resolve_left List.not_mem_nil
  | cons other all ih =>
      refine ih _ ?_
      by_cases same : site = other
      · subst same
        exact Or.inr (by simp [Results.set])
      · rcases visited with member | already
        · exact Or.inl ((List.mem_cons.mp member).resolve_left same)
        · right
          refine (if_neg ?_).trans already
          rintro ⟨socket, unit, -⟩
          exact same (Prod.ext socket unit)

theorem counters_collectData (results : Results) (ctrs : List (Counter × Nat)) :
    (collectData iios measured results ctrs).map (·.counter) = ctrs.map (·.1) := by
  induction ctrs generalizing results with
  | nil => rfl
  | cons ctr ctrs ih => rw [collectData, List.map_cons, List.map_cons, ih]

/-- The counters have what was measured for them. -/
theorem data_collectData (results : Results) {ctrs : List (Counter × Nat)} {c : IioCounter}
    (member : c ∈ collectData iios measured results ctrs) : ∃ i, (c.counter, i) ∈ ctrs ∧
      ∀ site ∈ sites iios, c.data site.1 site.2 (c.counter.hId, c.counter.vId) =
        measured i site.1 site.2 := by
  induction ctrs generalizing results with
  | nil => cases member
  | cons ctr ctrs ih =>
      rw [collectData] at member
      rcases List.mem_cons.mp member with rfl | later
      · refine ⟨ctr.2, List.mem_cons_self, fun site inside => ?_⟩
        simp only [getSample_eq]
        exact foldl_set (sites iios) results (Or.inl inside)
      · obtain ⟨i, inside, values⟩ := ih _ later
        exact ⟨i, List.mem_cons_of_mem ctr inside, values⟩

end Results

/-! ## Tables -/

/-- The value collected for the counter that is declared with these names. -/
def collected (blocks : List Block) (measured : Nat → Nat → Nat → Nat) (site : Nat × Nat)
    (hName vName : Bytes) : Nat :=
  measured ((declarations blocks).idxOf (hName, vName)) site.1 site.2

/-- The names and values of the rows: a row for each vertical name of the first horizontal name, with
values for those horizontal names at the front that have as many vertical names. -/
def tableRows (blocks : List Block) (value : Bytes → Bytes → Nat) : List (Bytes × List Nat) :=
  ((blocks.head?.map (·.2)).getD []).zipIdx.map (fun p =>
    (p.1, (blocks.takeWhile (fun block => p.2 < block.2.length)).map
      (fun block => value block.1 (block.2.getD p.2 []))))

section Tables

variable {blocks : List Block} {l : Loaded} {iios : List Socket} {measured : Nat → Nat → Nat → Nat}
  {results : Results} {site : Nat × Nat}

theorem declarations_eq : declarations blocks =
    (idsOf blocks).flatten.map (fun ids => (ids.hName, ids.vName)) := by
  have each : ∀ (n : Nat) (some : List Block), some.flatMap (fun block => block.2.map (block.1, ·)) =
      ((some.zipIdx n).map (fun p => blockIds p.1 p.2)).flatten.map (fun ids => (ids.hName, ids.vName)) := by
    intro n some
    induction some generalizing n with
    | nil => rfl
    | cons block some ih =>
        rw [List.flatMap_cons, ih (n + 1), List.zipIdx_cons, List.map_cons, List.flatten_cons,
          List.map_append]
        congr 1
        rw [blockIds, List.map_map]
        calc block.2.map (block.1, ·)
          _ = (block.2.zipIdx.map Prod.fst).map (block.1, ·) := by rw [List.zipIdx_map_fst]
          _ = _ := List.map_map ..
  exact each 0 blocks

theorem nodup_declarations (distinct : (blocks.map (·.1)).Nodup)
    (nodup : ∀ block ∈ blocks, block.2.Nodup) : (declarations blocks).Nodup := by
  rw [declarations, List.nodup_flatMap]
  refine ⟨?_, ?_⟩
  · intro block member
    exact List.Nodup.map (fun a b same => (Prod.mk.inj same).2) (nodup block member)
  · refine List.Pairwise.imp ?_ (List.pairwise_map.mp distinct)
    intro a b different pair inA inB
    obtain ⟨v, -, rfl⟩ := List.mem_map.mp inA
    obtain ⟨w, -, same⟩ := List.mem_map.mp inB
    exact different (Prod.mk.inj same).1.symm

/-- What is stored for a counter is what was collected for its names. -/
theorem data_eq_collected (reads : Reads l blocks) (distinct : (blocks.map (·.1)).Nodup)
    (inside : site ∈ sites iios) {c : IioCounter}
    (member : c ∈ collectData iios measured results l.ctrs.zipIdx) :
    c.data site.1 site.2 (c.counter.hId, c.counter.vId) =
      collected blocks measured site c.counter.hEventName c.counter.vEventName := by
  obtain ⟨i, inCtrs, values⟩ := data_collectData results member
  have place : l.ctrs[i]? = some c.counter := List.mk_mem_zipIdx_iff_getElem?.mp inCtrs
  have names : (declarations blocks)[i]? = some (c.counter.hEventName, c.counter.vEventName) := by
    rw [declarations_eq, ← reads.ids, List.getElem?_map, List.getElem?_map, place]
    rfl
  obtain ⟨less, value⟩ := List.getElem?_eq_some_iff.mp names
  have index : (declarations blocks).idxOf (c.counter.hEventName, c.counter.vEventName) = i := by
    rw [← value]
    exact (nodup_declarations distinct reads.distinct).idxOf_getElem i less
  rw [values site inside, collected, index]

/-- The counters in the groups in which they are listed. -/
theorem exists_groups {α β : Type} {f : α → β} {xs : List α} {parts : List (List β)}
    (same : xs.map f = parts.flatten) : ∃ groups : List (List α), groups.flatten = xs ∧
      groups.map (List.map f) = parts := by
  induction parts generalizing xs with
  | nil =>
      rw [List.flatten_nil, List.map_eq_nil_iff] at same
      exact ⟨[], same.symm, rfl⟩
  | cons part parts ih =>
      rw [List.flatten_cons] at same
      obtain ⟨first, rest, rfl, firstSame, restSame⟩ := List.map_eq_append_iff.mp same
      obtain ⟨groups, flat, mapped⟩ := ih restSame
      refine ⟨first :: groups, ?_, ?_⟩
      · rw [List.flatten_cons, flat]
      · rw [List.map_cons, firstSame, mapped]

/-- A loop over a list with its places that does not look at them. -/
theorem filterMap_zipIdx {α β : Type} (f : α → Option β) (xs : List α) :
    xs.zipIdx.filterMap (fun p => f p.1) = xs.filterMap f := by
  calc xs.zipIdx.filterMap (fun p => f p.1)
    _ = (xs.zipIdx.map Prod.fst).filterMap f := (List.filterMap_map ..).symm
    _ = xs.filterMap f := by rw [List.zipIdx_map_fst]

/-- Where the numbers of vertical names do not increase, the names with a vertical name at this place are
at the front. -/
theorem filterMap_descending (descending : blocks.Pairwise (fun a b => b.2.length ≤ a.2.length)) (i : Nat)
    (value : Bytes → Bytes → Nat) :
    blocks.filterMap (fun block => block.2[i]?.map (value block.1)) =
      (blocks.takeWhile (fun block => i < block.2.length)).map
        (fun block => value block.1 (block.2.getD i [])) := by
  induction blocks with
  | nil => rfl
  | cons block blocks ih =>
      obtain ⟨shorter, later⟩ := List.pairwise_cons.mp descending
      by_cases less : i < block.2.length
      · rw [List.takeWhile_cons_of_pos (by simpa using less), List.map_cons, ← ih later,
          List.filterMap_cons_some]
        rw [List.getD_eq_getElem?_getD, List.getElem?_eq_getElem less]
        rfl
      · have none : ∀ other ∈ block :: blocks, other.2[i]?.map (value other.1) = none := by
          intro other member
          rw [List.getElem?_eq_none]
          · rfl
          · rcases List.mem_cons.mp member with rfl | inRest
            · omega
            · have := shorter other inRest
              omega
        rw [List.takeWhile_cons_of_neg (by simpa using less), List.map_nil]
        exact List.filterMap_eq_nil_iff.mpr none

/-- The counters of a block at one place. -/
theorem filterMap_idsOf (i : Nat) (value : Bytes → Bytes → Nat) :
    (idsOf blocks).filterMap (fun ids => ids[i]?.map (fun id => value id.hName id.vName)) =
      blocks.filterMap (fun block => block.2[i]?.map (value block.1)) := by
  have each : ((fun ids : List Ids => ids[i]?.map (fun id => value id.hName id.vName)) ∘
      fun p : Block × Nat => blockIds p.1 p.2) = fun p => p.1.2[i]?.map (value p.1.1) := by
    funext p
    simp only [Function.comp_apply, blockIds, List.getElem?_map, List.getElem?_zipIdx, Option.map_map]
    rfl
  rw [idsOf, List.filterMap_map, each]
  exact filterMap_zipIdx (fun block : Block => block.2[i]?.map (value block.1)) blocks

theorem numbered_of_ids {groups : List (List IioCounter)}
    (ids : groups.map (List.map (fun c => c.counter.ids)) = idsOf blocks) : Numbered groups := by
  intro j g here i c inGroup
  have block := congrArg (fun all => all[j]?) ids
  simp only [List.getElem?_map, here, Option.map_some, idsOf, List.getElem?_zipIdx, Nat.zero_add,
    Option.map_map] at block
  obtain ⟨b, -, same⟩ := Option.map_eq_some_iff.mp block.symm
  have counter := congrArg (fun all => all[i]?) same
  simp only [Function.comp_apply, blockIds, List.getElem?_map, inGroup, Option.map_some,
    List.getElem?_zipIdx, Nat.zero_add, Option.map_map] at counter
  obtain ⟨v, -, ids'⟩ := Option.map_eq_some_iff.mp counter
  exact ⟨(congrArg Ids.hId ids').symm, (congrArg Ids.vId ids').symm⟩

theorem lengths_of_ids {groups : List (List IioCounter)}
    (ids : groups.map (List.map (fun c => c.counter.ids)) = idsOf blocks) :
    groups.map List.length = blocks.map (fun block => block.2.length) := by
  have lengths := congrArg (List.map List.length) ids
  rw [List.map_map, idsOf, List.map_map] at lengths
  calc groups.map List.length
    _ = groups.map (List.length ∘ List.map (fun c => c.counter.ids)) := by
        refine List.map_congr_left (fun g _ => ?_)
        simp
    _ = blocks.zipIdx.map (fun p => p.1.2.length) := by
        rw [lengths]
        refine List.map_congr_left (fun p _ => ?_)
        simp [blockIds]
    _ = (blocks.zipIdx.map Prod.fst).map (fun block => block.2.length) := by
        rw [List.map_map]
        rfl
    _ = blocks.map (fun block => block.2.length) := by rw [List.zipIdx_map_fst]

theorem rowCount_of_lengths {groups : List (List IioCounter)}
    (lengths : groups.map List.length = blocks.map (fun block => block.2.length)) :
    rowCount groups = ((blocks.head?.map (·.2)).getD []).length := by
  cases groups with
  | nil =>
      cases blocks with
      | nil => rfl
      | cons block blocks => cases lengths
  | cons g groups =>
      cases blocks with
      | nil => cases lengths
      | cons block blocks => exact (List.cons.inj lengths).1

theorem longest_of_lengths {groups : List (List IioCounter)}
    (lengths : groups.map List.length = blocks.map (fun block => block.2.length))
    (descending : blocks.Pairwise (fun a b => b.2.length ≤ a.2.length)) :
    ∀ g ∈ groups, g.length ≤ rowCount groups := by
  intro g member
  have inLengths : g.length ∈ blocks.map (fun block => block.2.length) := by
    rw [← lengths]
    exact List.mem_map_of_mem member
  obtain ⟨block, inBlocks, same⟩ := List.mem_map.mp inLengths
  rw [rowCount_of_lengths lengths, ← same]
  cases blocks with
  | nil => cases inBlocks
  | cons first others =>
      rcases List.mem_cons.mp inBlocks with rfl | later
      · exact Nat.le_refl _
      · exact (List.pairwise_cons.mp descending).1 block later

/-- The values of a row, by the names of its counters. -/
theorem values_column {groups : List (List IioCounter)}
    (ids : groups.map (List.map (fun c => c.counter.ids)) = idsOf blocks) (value : Bytes → Bytes → Nat)
    (data : ∀ c ∈ groups.flatten, c.data site.1 site.2 (c.counter.hId, c.counter.vId) =
      value c.counter.hEventName c.counter.vEventName) (i : Nat) :
    (column groups i).map (fun hunit => hunit.2.data site.1 site.2 (hunit.1, i)) =
      blocks.filterMap (fun block => block.2[i]?.map (value block.1)) := by
  have numbered := numbered_of_ids ids
  have own : ∀ p ∈ groups.zipIdx, (p.1[i]?.map (fun c => (p.2, c))).map
      (fun hunit => hunit.2.data site.1 site.2 (hunit.1, i)) =
        p.1[i]?.map (fun c => value c.counter.ids.hName c.counter.ids.vName) := by
    rintro ⟨g, j⟩ member
    have here := List.mk_mem_zipIdx_iff_getElem?.mp member
    rw [Option.map_map]
    refine Option.map_congr (fun c inGroup => ?_)
    obtain ⟨hId, vId⟩ := numbered j g here i c inGroup
    have stored := data c (List.mem_flatten.mpr
      ⟨g, List.mem_of_getElem? here, List.mem_of_getElem? inGroup⟩)
    rw [hId, vId] at stored
    exact stored
  rw [column, List.map_filterMap, List.filterMap_congr own,
    filterMap_zipIdx (fun g : List IioCounter =>
      g[i]?.map (fun c => value c.counter.ids.hName c.counter.ids.vName)), ← filterMap_idsOf, ← ids,
    List.filterMap_map]
  congr 1
  funext g
  rw [Function.comp_apply, List.getElem?_map, Option.map_map]
  rfl

/-- The first counter of a row gives it its name. -/
theorem lookup_column {groups : List (List IioCounter)} {first : Block} {others : List Block}
    (ids : groups.map (List.map (fun c => c.counter.ids)) = idsOf (first :: others)) {i : Nat}
    {vName : Bytes} (here : first.2[i]? = some vName) :
    ∃ c, (column groups i).lookup 0 = some c ∧ c.counter.vEventName = vName := by
  cases groups with
  | nil => cases ids
  | cons g groups =>
      have names : g.map (fun c => c.counter.ids) = blockIds first 0 := (List.cons.inj ids).1
      have counter := congrArg (fun all => all[i]?) names
      simp only [List.getElem?_map, blockIds, List.getElem?_zipIdx, here, Option.map_some,
        Nat.zero_add] at counter
      obtain ⟨c, inGroup, same⟩ := Option.map_eq_some_iff.mp counter
      refine ⟨c, ?_, congrArg Ids.vName same⟩
      simp [column, List.zipIdx_cons, inGroup]

/-- The rows of a stack. -/
theorem rowData_vSort (reads : Reads l blocks) (distinct : (blocks.map (·.1)).Nodup)
    (descending : blocks.Pairwise (fun a b => b.2.length ≤ a.2.length)) (inside : site ∈ sites iios) :
    (vSort (collectData iios measured results l.ctrs.zipIdx)).map (rowData site.1 site.2) =
      (tableRows blocks (collected blocks measured site)).map .ok := by
  have counters : (collectData iios measured results l.ctrs.zipIdx).map (fun c => c.counter.ids) =
      (idsOf blocks).flatten := by
    have same : (collectData iios measured results l.ctrs.zipIdx).map (·.counter) = l.ctrs := by
      rw [counters_collectData, List.zipIdx_map_fst]
    calc (collectData iios measured results l.ctrs.zipIdx).map (fun c => c.counter.ids)
      _ = ((collectData iios measured results l.ctrs.zipIdx).map (·.counter)).map Counter.ids := by
          rw [List.map_map]
          rfl
      _ = (idsOf blocks).flatten := by rw [same, reads.ids]
  obtain ⟨groups, flat, ids⟩ := exists_groups counters
  have data : ∀ c ∈ groups.flatten, c.data site.1 site.2 (c.counter.hId, c.counter.vId) =
      collected blocks measured site c.counter.hEventName c.counter.vEventName := by
    intro c member
    rw [flat] at member
    exact data_eq_collected reads distinct inside member
  have lengths := lengths_of_ids ids
  rw [← flat, vSort_groups (numbered_of_ids ids) (longest_of_lengths lengths descending), rowsFrom,
    rowCount_of_lengths lengths, tableRows, List.map_map, List.map_map]
  cases blocks with
  | nil => rfl
  | cons first others =>
      refine List.ext_getElem? (fun i => ?_)
      simp only [List.getElem?_map, List.head?_cons, Option.map_some, Option.getD_some,
        List.getElem?_zipIdx, Nat.zero_add]
      rcases here : first.2[i]? with - | vName
      · have long := List.getElem?_eq_none_iff.mp here
        rw [List.getElem?_eq_none (by simpa using long)]
        rfl
      · have less := (List.getElem?_eq_some_iff.mp here).1
        rw [List.getElem?_range' less, Nat.zero_add, Nat.one_mul]
        obtain ⟨c, isFirst, name⟩ := lookup_column ids here
        simp only [Option.map_some, Function.comp_apply, rowData, isFirst, name,
          values_column ids _ data, filterMap_descending descending]

end Tables

end Pcm.Iio
