import Pcm.IioEvents
import Pcm.Lib.Throwing

/-!
# Names and numbers in event files

For a file that lists its counters one horizontal name after the other: a horizontal name gets its place among
the horizontal names as its number, and a vertical name its place among those of its horizontal name.
-/

namespace Pcm.Iio

open StdString
open Throwing (bind_eq_ok)

/-! ## The names in a line -/

inductive NameItem
  | h (name : Bytes)
  | v (name : Bytes)
  deriving DecidableEq, Repr

/-- The name that an item gives. -/
def nameItem (item : Bytes) : Option NameItem :=
  if keyOf item = [] ∨ valueOf item = [] then none
  else
    match fieldOf (keyOf item) with
    | .hEventName => some (.h (dos2unix (valueOf item)))
    | .vEventName => some (.v (dos2unix (valueOf item)))
    | _ => none

def nameItems (line : Bytes) : List NameItem := (items line).filterMap nameItem

/-- The names of a line with a horizontal and then a vertical name. -/
def declared (line : Bytes) : Option (Bytes × Bytes) :=
  match nameItems line with
  | [.h hName, .v vName] => some (hName, vName)
  | _ => none

/-- The names and numbers of a counter. -/
structure Ids where
  hName : Bytes := ascii "INVALID"
  vName : Bytes := ascii "INVALID"
  hId : Nat := 0
  vId : Nat := 0
  deriving DecidableEq, Repr

def Counter.ids (c : Counter) : Ids := ⟨c.hEventName, c.vEventName, c.hId, c.vId⟩

/-- What the names of a line depend on. -/
structure Naming where
  nameMap : NameMap
  ids : Ids := {}
  hName : Bytes := []
  deriving DecidableEq, Repr

def Parse.naming (p : Parse) : Naming := ⟨p.nameMap, p.ctr.ids, p.hName⟩

/-- `nameMap` after a horizontal name. -/
def NameMap.add (nameMap : NameMap) (hName : Bytes) : NameMap :=
  if (nameMap.lookup hName).isSome then nameMap else nameMap.set hName { hId := nameMap.length }

def nameStep (n : Naming) : NameItem → Option Naming
  | .h hName => some
      { nameMap := n.nameMap.add hName
        ids := { n.ids with hName := hName, hId := (n.nameMap.add hName).length - 1 }
        hName := hName }
  | .v vName =>
      if vName ∈ (n.nameMap.entry n.hName).vNames then none
      else some
        { n with
          nameMap := n.nameMap.set n.hName
            { n.nameMap.entry n.hName with vNames := (n.nameMap.entry n.hName).vNames ++ [vName] }
          ids := { n.ids with vName := vName, vId := (n.nameMap.entry n.hName).vNames.length } }

section Items

variable {ccrType : CcrType} {p p' : Parse} {item : Bytes}

/-- What an item does to the names. -/
theorem naming_parseItem (parsed : parseItem ccrType p item = .ok p') :
    (match nameItem item with
      | none => some p.naming
      | some name => nameStep p.naming name) = some p'.naming := by
  simp only [parseItem] at parsed
  simp only [nameItem]
  split at parsed
  · rename_i skipped
    rw [if_pos skipped, ← Except.ok.inj parsed]
  · rename_i present
    rw [if_neg present]
    cases field : fieldOf (keyOf item)
    case hEventName =>
        simp only [field] at parsed
        rw [← Except.ok.inj parsed]
        rfl
    case vEventName =>
        simp only [field, parseVName] at parsed
        split at parsed
        · cases parsed
        · rename_i fresh
          rw [← Except.ok.inj parsed]
          exact if_neg fresh
    case unitType =>
        simp only [field] at parsed
        split at parsed
        · rw [← Except.ok.inj parsed]
          rfl
        · cases parsed
    all_goals
      simp only [field, setField] at parsed
      cases parsed <;> rfl

theorem naming_items {items : List Bytes} (parsed : items.foldlM (parseItem ccrType) p = .ok p') :
    (items.filterMap nameItem).foldlM nameStep p.naming = some p'.naming := by
  induction items generalizing p with
  | nil =>
      rw [← Except.ok.inj parsed]
      rfl
  | cons item items ih =>
      obtain ⟨middle, first, parsed⟩ := bind_eq_ok parsed
      have step := naming_parseItem first
      have later := ih parsed
      cases name : nameItem item with
      | none =>
          rw [name] at step
          rw [List.filterMap_cons_none name, Option.some.inj step]
          exact later
      | some given =>
          rw [name] at step
          rw [List.filterMap_cons_some name, List.foldlM_cons]
          simp only at step
          rw [step]
          exact later

/-- What a counter's line adds. -/
theorem loadLine_ok {l l' : Loaded} {line : Bytes} (counts : isCounterLine line = true)
    (loaded : loadLine ccrType l line = .ok l') :
    ∃ p, (items line).foldlM (parseItem ccrType) { nameMap := l.nameMap, ctr := { type := l.type } } = .ok p ∧
      l' = { nameMap := p.nameMap, ctrs := l.ctrs ++ [p.ctr], type := p.ctr.type } := by
  rw [loadLine, if_pos counts] at loaded
  obtain ⟨p, parsed, result⟩ := bind_eq_ok loaded
  exact ⟨p, parsed, (Except.ok.inj result).symm⟩

end Items

/-! ## Blocks -/

/-- A horizontal name with the vertical names that come with it, in their order. -/
abbrev Block := Bytes × List Bytes

/-- The names of the lines that list these blocks. -/
def declarations (blocks : List Block) : List (Bytes × Bytes) :=
  blocks.flatMap (fun block => block.2.map (fun vName => (block.1, vName)))

/-- The map of the names of these blocks. -/
def mapOf (blocks : List Block) : NameMap :=
  blocks.zipIdx.map (fun p => (p.1.1, { hId := p.2, vNames := p.1.2 }))

/-- The names and numbers of the counters of a block. -/
def blockIds (block : Block) (hId : Nat) : List Ids :=
  block.2.zipIdx.map (fun p => ⟨block.1, p.1, hId, p.2⟩)

def idsOf (blocks : List Block) : List (List Ids) :=
  blocks.zipIdx.map (fun p => blockIds p.1 p.2)

section Maps

variable {blocks : List Block} {hName vName : Bytes} {vNames : List Bytes}

theorem mapOf_snoc (block : Block) :
    mapOf (blocks ++ [block]) = mapOf blocks ++ [(block.1, { hId := blocks.length, vNames := block.2 })] := by
  simp [mapOf, List.zipIdx_append]

theorem idsOf_snoc (block : Block) :
    idsOf (blocks ++ [block]) = idsOf blocks ++ [blockIds block blocks.length] := by
  simp [idsOf, List.zipIdx_append]

theorem blockIds_snoc (hId : Nat) : blockIds (hName, vNames ++ [vName]) hId =
    blockIds (hName, vNames) hId ++ [⟨hName, vName, hId, vNames.length⟩] := by
  simp [blockIds, List.zipIdx_append]

theorem length_mapOf : (mapOf blocks).length = blocks.length := by
  simp [mapOf]

theorem keys_mapOf : (mapOf blocks).map (·.1) = blocks.map (·.1) := by
  rw [mapOf, List.map_map]
  calc blocks.zipIdx.map (fun p => p.1.1)
    _ = (blocks.zipIdx.map Prod.fst).map Prod.fst := (List.map_map ..).symm
    _ = blocks.map Prod.fst := by rw [List.zipIdx_map_fst]

theorem lookup_mapOf_none (fresh : hName ∉ blocks.map (·.1)) : (mapOf blocks).lookup hName = none := by
  rw [List.lookup_eq_none_iff]
  intro entry member
  rw [← keys_mapOf] at fresh
  refine bne_iff_ne.mpr ?_
  rintro rfl
  exact fresh (List.mem_map.mpr ⟨entry, member, rfl⟩)

/-- Assigning to a new name. -/
theorem set_mapOf_fresh (fresh : hName ∉ blocks.map (·.1)) (entry : NameEntry) :
    (mapOf blocks).set hName entry = mapOf blocks ++ [(hName, entry)] := by
  rw [NameMap.set, if_neg]
  rw [List.any_eq_true]
  rintro ⟨old, member, same⟩
  rw [← keys_mapOf] at fresh
  refine fresh (List.mem_map.mpr ⟨old, member, ?_⟩)
  simpa using same

/-- Assigning to the name of the last block. -/
theorem set_mapOf_last (fresh : hName ∉ blocks.map (·.1)) (entry entry' : NameEntry) :
    NameMap.set (mapOf blocks ++ [(hName, entry)]) hName entry' = mapOf blocks ++ [(hName, entry')] := by
  rw [NameMap.set, if_pos (by simp), List.map_append]
  congr 1
  · refine (List.map_congr_left (fun old member => ?_)).trans (List.map_id _)
    rw [if_neg]
    · rfl
    · rintro rfl
      rw [← keys_mapOf] at fresh
      exact fresh (List.mem_map.mpr ⟨old, member, rfl⟩)
  · simp

theorem lookup_mapOf_last (fresh : hName ∉ blocks.map (·.1)) (entry : NameEntry) :
    (mapOf blocks ++ [(hName, entry)]).lookup hName = some entry := by
  rw [List.lookup_append, lookup_mapOf_none fresh]
  simp

end Maps

/-! ## Reading a listing -/

/-- The file so far has these blocks. -/
structure Reads (l : Loaded) (blocks : List Block) : Prop where
  nameMap : l.nameMap = mapOf blocks
  ids : l.ctrs.map Counter.ids = (idsOf blocks).flatten
  distinct : ∀ block ∈ blocks, block.2.Nodup

theorem nameSteps_declared (n : Naming) (hName vName : Bytes) :
    [NameItem.h hName, .v vName].foldlM nameStep n =
      if vName ∈ ((n.nameMap.add hName).entry hName).vNames then none
      else some
        { nameMap := (n.nameMap.add hName).set hName
            { (n.nameMap.add hName).entry hName with
              vNames := ((n.nameMap.add hName).entry hName).vNames ++ [vName] }
          ids := ⟨hName, vName, (n.nameMap.add hName).length - 1,
            ((n.nameMap.add hName).entry hName).vNames.length⟩
          hName := hName } := by
  by_cases known : vName ∈ ((n.nameMap.add hName).entry hName).vNames
  · simp [nameStep, known]
  · simp [nameStep, known]

section Lines

variable {ccrType : CcrType} {l l' : Loaded} {line hName vName : Bytes} {blocks : List Block}
  {vNames : List Bytes}

/-- A line with a horizontal and then a vertical name. -/
theorem loadLine_declared (counts : isCounterLine line = true) (names : declared line = some (hName, vName))
    (loaded : loadLine ccrType l line = .ok l') :
    vName ∉ ((l.nameMap.add hName).entry hName).vNames ∧
      l'.nameMap = (l.nameMap.add hName).set hName
        { (l.nameMap.add hName).entry hName with
          vNames := ((l.nameMap.add hName).entry hName).vNames ++ [vName] } ∧
      l'.ctrs.map Counter.ids = l.ctrs.map Counter.ids ++
        [⟨hName, vName, (l.nameMap.add hName).length - 1,
          ((l.nameMap.add hName).entry hName).vNames.length⟩] := by
  have given : nameItems line = [.h hName, .v vName] := by
    rw [declared] at names
    split at names
    · rename_i h v shape
      obtain ⟨rfl, rfl⟩ := Prod.mk.inj (Option.some.inj names)
      exact shape
    · cases names
  obtain ⟨p, parsed, rfl⟩ := loadLine_ok counts loaded
  have naming := naming_items parsed
  rw [← nameItems, given, nameSteps_declared] at naming
  split at naming
  · cases naming
  · rename_i fresh
    have same := Option.some.inj naming
    refine ⟨fresh, ?_, ?_⟩
    · exact (congrArg Naming.nameMap same).symm
    · rw [List.map_append, List.map_singleton]
      exact congrArg (fun ids => l.ctrs.map Counter.ids ++ [ids]) (congrArg Naming.ids same).symm

theorem add_mapOf_fresh (fresh : hName ∉ blocks.map (·.1)) :
    (mapOf blocks).add hName = mapOf (blocks ++ [(hName, [])]) := by
  rw [NameMap.add, lookup_mapOf_none fresh, mapOf_snoc, length_mapOf]
  exact set_mapOf_fresh fresh _

theorem add_mapOf_last (fresh : hName ∉ blocks.map (·.1)) :
    (mapOf (blocks ++ [(hName, vNames)])).add hName = mapOf (blocks ++ [(hName, vNames)]) := by
  rw [NameMap.add, mapOf_snoc, lookup_mapOf_last fresh]
  rfl

/-- One more vertical name for the last block, which may have none yet. -/
theorem Reads.more (nameMap : l.nameMap.add hName = mapOf (blocks ++ [(hName, vNames)]))
    (ids : l.ctrs.map Counter.ids = (idsOf (blocks ++ [(hName, vNames)])).flatten)
    (distinct : ∀ block ∈ blocks ++ [(hName, vNames)], block.2.Nodup)
    (fresh : hName ∉ blocks.map (·.1)) (counts : isCounterLine line = true)
    (names : declared line = some (hName, vName)) (loaded : loadLine ccrType l line = .ok l') :
    Reads l' (blocks ++ [(hName, vNames ++ [vName])]) := by
  obtain ⟨unknown, nameMap', ids'⟩ := loadLine_declared counts names loaded
  have entry : (mapOf (blocks ++ [(hName, vNames)])).entry hName =
      { hId := blocks.length, vNames := vNames } := by
    rw [NameMap.entry, mapOf_snoc, lookup_mapOf_last fresh]
    rfl
  have length : (mapOf (blocks ++ [(hName, vNames)])).length = blocks.length + 1 := by
    rw [length_mapOf, List.length_append, List.length_singleton]
  rw [nameMap, entry] at unknown nameMap' ids'
  refine ⟨?_, ?_, ?_⟩
  · rw [nameMap', mapOf_snoc, mapOf_snoc]
    exact set_mapOf_last fresh _ _
  · rw [ids', ids, length, idsOf_snoc, idsOf_snoc, blockIds_snoc]
    simp
  · intro block member
    rcases List.mem_append.mp member with before | last
    · exact distinct block (List.mem_append_left _ before)
    · rw [List.mem_singleton.mp last]
      have nodup : vNames.Nodup := distinct _ (List.mem_append_right _ (List.mem_singleton_self _))
      exact List.Nodup.append nodup (List.nodup_singleton _)
        (List.disjoint_singleton.mpr unknown)

/-- The lines of a block after its first one. -/
theorem Reads.block {lines : List Bytes} (reads : Reads l (blocks ++ [(hName, vNames)]))
    (fresh : hName ∉ blocks.map (·.1)) (counts : ∀ line ∈ lines, isCounterLine line = true)
    {later : List Bytes} (names : lines.map declared = later.map (fun vName => some (hName, vName)))
    (loaded : lines.foldlM (loadLine ccrType) l = .ok l') :
    Reads l' (blocks ++ [(hName, vNames ++ later)]) := by
  induction later generalizing l vNames lines with
  | nil =>
      rw [List.map_nil, List.map_eq_nil_iff] at names
      subst names
      obtain rfl := Except.ok.inj loaded
      rwa [List.append_nil]
  | cons vName later ih =>
      cases lines with
      | nil => cases names
      | cons line lines =>
          obtain ⟨name, names⟩ := List.cons.inj names
          obtain ⟨middle, first, loaded⟩ := bind_eq_ok loaded
          have nameMap : l.nameMap.add hName = mapOf (blocks ++ [(hName, vNames)]) := by
            rw [reads.nameMap, add_mapOf_last fresh]
          have step := Reads.more nameMap reads.ids reads.distinct fresh
            (counts line List.mem_cons_self) name first
          have rest := ih step (fun other member => counts other (List.mem_cons_of_mem line member))
            names loaded
          rwa [List.append_assoc, List.singleton_append] at rest

theorem Reads.newBlock {lines : List Bytes} (reads : Reads l blocks) (fresh : hName ∉ blocks.map (·.1))
    (counts : ∀ line ∈ lines, isCounterLine line = true) (nonempty : vNames ≠ [])
    (names : lines.map declared = vNames.map (fun vName => some (hName, vName)))
    (loaded : lines.foldlM (loadLine ccrType) l = .ok l') : Reads l' (blocks ++ [(hName, vNames)]) := by
  cases vNames with
  | nil => exact absurd rfl nonempty
  | cons vName vNames =>
      cases lines with
      | nil => cases names
      | cons line lines =>
          obtain ⟨name, names⟩ := List.cons.inj names
          obtain ⟨middle, first, loaded⟩ := bind_eq_ok loaded
          have nameMap : l.nameMap.add hName = mapOf (blocks ++ [(hName, [])]) := by
            rw [reads.nameMap, add_mapOf_fresh fresh]
          have ids : l.ctrs.map Counter.ids = (idsOf (blocks ++ [(hName, [])])).flatten := by
            rw [reads.ids, idsOf_snoc]
            simp [blockIds]
          have distinct : ∀ block ∈ blocks ++ [(hName, [])], block.2.Nodup := by
            intro block member
            rcases List.mem_append.mp member with before | last
            · exact reads.distinct block before
            · rw [List.mem_singleton.mp last]
              exact List.nodup_nil
          have step := Reads.more nameMap ids distinct fresh (counts line List.mem_cons_self) name first
          exact step.block fresh (fun other member => counts other (List.mem_cons_of_mem line member))
            names loaded

theorem Reads.listed {lines : List Bytes} {later : List Block} (reads : Reads l blocks)
    (fresh : ((blocks ++ later).map (·.1)).Nodup) (counts : ∀ line ∈ lines, isCounterLine line = true)
    (nonempty : ∀ block ∈ later, block.2 ≠ [])
    (names : lines.map declared = (declarations later).map some)
    (loaded : lines.foldlM (loadLine ccrType) l = .ok l') : Reads l' (blocks ++ later) := by
  induction later generalizing l blocks lines with
  | nil =>
      rw [declarations, List.flatMap_nil, List.map_nil, List.map_eq_nil_iff] at names
      subst names
      obtain rfl := Except.ok.inj loaded
      rwa [List.append_nil]
  | cons block later ih =>
      rw [declarations, List.flatMap_cons, List.map_append, ← declarations] at names
      obtain ⟨first, rest, rfl, firstNames, restNames⟩ := List.map_eq_append_iff.mp names
      rw [List.foldlM_append] at loaded
      obtain ⟨l'', middle, loaded⟩ := bind_eq_ok loaded
      have unknown : block.1 ∉ blocks.map (·.1) := by
        rw [List.map_append, List.nodup_append'] at fresh
        intro member
        exact fresh.2.2 member (List.mem_map.mpr ⟨block, List.mem_cons_self, rfl⟩)
      rw [List.map_map] at firstNames
      have step := reads.newBlock unknown
        (fun line member => counts line (List.mem_append_left _ member))
        (nonempty block List.mem_cons_self) firstNames middle
      have further : ((blocks ++ [block] ++ later).map (·.1)).Nodup := by
        rwa [List.append_assoc, List.singleton_append]
      have whole := ih step further (fun line member => counts line (List.mem_append_right _ member))
        (fun other member => nonempty other (List.mem_cons_of_mem block member)) restNames loaded
      rwa [List.append_assoc, List.singleton_append] at whole

/-- Other lines change nothing. -/
theorem foldlM_filter_isCounterLine (lines : List Bytes) (l : Loaded) :
    lines.foldlM (loadLine ccrType) l = (lines.filter isCounterLine).foldlM (loadLine ccrType) l := by
  induction lines generalizing l with
  | nil => rfl
  | cons line lines ih =>
      rw [List.filter_cons]
      split
      · rw [List.foldlM_cons, List.foldlM_cons]
        congr 1
        funext middle
        exact ih middle
      · rename_i other
        rw [List.foldlM_cons, loadLine, if_neg other]
        exact ih l

end Lines

/-! ## Listings -/

def counterLines (content : Bytes) : List Bytes := (Raw.getlines 10 [] content).filter isCounterLine

/-- A file whose lines give a horizontal and then a vertical name, all lines with one horizontal name after
the other. -/
structure Listing (content : Bytes) (blocks : List Block) : Prop where
  names : (counterLines content).map declared = (declarations blocks).map some
  distinct : (blocks.map (·.1)).Nodup
  nonempty : ∀ block ∈ blocks, block.2 ≠ []

/-- What a listing is read into. -/
theorem Listing.reads {content : Bytes} {blocks : List Block} (listing : Listing content blocks)
    {ccrType : CcrType} {l : Loaded} (loaded : load_events ccrType content = .ok l) : Reads l blocks := by
  rw [load_events, foldlM_filter_isCounterLine] at loaded
  have start : Reads {} [] := ⟨rfl, rfl, nofun⟩
  exact start.listed listing.distinct (fun line member => (List.mem_filter.mp member).2) listing.nonempty
    listing.names loaded

end Pcm.Iio
