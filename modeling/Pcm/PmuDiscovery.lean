import Pcm.MmioCopy

/-!
# Discovery of uncore units

`UncorePMUDiscovery` (`uncore_pmu_discovery.cpp:21-102`) reads discovery tables from memory: a global part and
then the units of its blocks. It keeps for each socket a vector of the global parts and another one of the units,
which belong together by their positions.
-/

namespace Pcm.PmuDiscovery

open StdString Mmio

/-- `struct GlobalPMU` (`uncore_pmu_discovery.h:78-86`), as its words. -/
structure GlobalPMU where
  word0 : BitVec 64
  globalCtrlAddr : BitVec 64
  word2 : BitVec 64
  deriving DecidableEq, Repr

def GlobalPMU.stride (pmu : GlobalPMU) : Nat := (pmu.word0.extractLsb' 8 8).toNat

def GlobalPMU.maxUnits (pmu : GlobalPMU) : Nat := (pmu.word0.extractLsb' 16 10).toNat

def GlobalPMU.ofWords (words : List Word) : GlobalPMU := ⟨tableWord words 0, tableWord words 1, tableWord words 2⟩

/-- `struct BoxPMU` (`uncore_pmu_discovery.h:100-112`), as its words. -/
structure BoxPMU where
  word0 : BitVec 64
  boxCtrlAddr : BitVec 64
  word2 : BitVec 64
  deriving DecidableEq, Repr

def BoxPMU.boxType (pmu : BoxPMU) : Nat := (pmu.word2.extractLsb' 0 16).toNat

def BoxPMU.ofWords (words : List Word) : BoxPMU := ⟨tableWord words 0, tableWord words 1, tableWord words 2⟩

/-- The first two words are not both zero. -/
def BoxPMU.valid (pmu : BoxPMU) : Bool := !(pmu.word0 == 0 && pmu.boxCtrlAddr == 0)

/-- The units of each type. -/
abbrev BoxPMUMap := Nat → List BoxPMU

def BoxPMUMap.push (boxPMUMap : BoxPMUMap) (pmu : BoxPMU) : BoxPMUMap := fun boxType =>
  if boxType = pmu.boxType then boxPMUMap boxType ++ [pmu] else boxPMUMap boxType

/-- socket -> die -> units, and socket -> die -> global part -/
structure UncorePMUDiscovery where
  boxPMUs : List (List BoxPMUMap) := []
  globalPMUs : List (List GlobalPMU) := []

/-- `v.resize((std::max)(socket + 1, v.size())); v[socket].push_back(a)` -/
def pushAt {α : Type} (v : List (List α)) (socket : Nat) (a : α) : List (List α) :=
  (v ++ .replicate (socket + 1 - v.length) []).modify socket (· ++ [a])

/-- A discovery table, as it is passed to `processTables` and as it is read. -/
structure DiscoveryTable where
  bar : BitVec 64
  NUMANode : Int
  /-- The memory during each copy, that of the global part first. -/
  memory : Nat → Memory
  /-- What is in a union before it is read. -/
  garbage : List Word
  size : garbage.length = 6

/-- `UncoreDiscoverySize * sizeof(uint64)` -/
def discoverySize : Nat := 24

/-- `bar + (u + 1) * step` -/
def unitAddress (bar : BitVec 64) (global : GlobalPMU) (u : Nat) : Nat :=
  (bar.toNat + (u + 1) * (global.stride * 8)) % 2 ^ 64

/-- The loop over the units, for `n` of them from the `u`-th one on. -/
def readUnits (t : DiscoveryTable) (global : GlobalPMU) :
    Nat → Nat → List Word → BoxPMUMap → Except StdException BoxPMUMap
  | 0, _, _, boxPMUMap => .ok boxPMUMap
  | n + 1, u, unit, boxPMUMap =>
      let copied := mmioMemcpy (t.memory (u + 1)) unit (unitAddress t.bar global u) discoverySize true
      match copied.2 with
      | .error e => .error e
      | .ok () =>
          let pmu := BoxPMU.ofWords copied.1
          readUnits t global n (u + 1) copied.1 (if pmu.valid then boxPMUMap.push pmu else boxPMUMap)

section Process

variable (mapNUMANodeToSocket : Int → Int)

/-- The socket of a table, 0 where the node is not known; what `PCM` says of the nodes is a parameter. -/
def socketOf (NUMANode : Int) : Nat :=
  if 0 ≤ NUMANode ∧ 0 ≤ mapNUMANodeToSocket NUMANode then (mapNUMANodeToSocket NUMANode).toNat else 0

/-- `processTables`, which catches what is thrown. -/
def processTables (s : UncorePMUDiscovery) (t : DiscoveryTable) : UncorePMUDiscovery :=
  let copied := mmioMemcpy (t.memory 0) t.garbage t.bar.toNat discoverySize true
  match copied.2 with
  | .error _ => s
  | .ok () =>
      let global := GlobalPMU.ofWords copied.1
      let socket := socketOf mapNUMANodeToSocket t.NUMANode
      let globalPMUs := pushAt s.globalPMUs socket global
      match readUnits t global global.maxUnits 0 t.garbage (fun _ => []) with
      -- The global part stays where the units are not read.
      | .error _ => { s with globalPMUs := globalPMUs }
      | .ok boxPMUMap => { globalPMUs := globalPMUs, boxPMUs := pushAt s.boxPMUs socket boxPMUMap }

/-- The constructor, with the tables that are found. -/
def discover (tables : List DiscoveryTable) : UncorePMUDiscovery :=
  tables.foldl (processTables mapNUMANodeToSocket) {}

end Process

/-! ## What a table says -/

namespace DiscoveryTable

variable (t : DiscoveryTable)

def global : GlobalPMU := .ofWords (rangeWords (t.memory 0) t.bar.toNat discoverySize)

/-- The words of a unit are read from here. -/
def unitStart (u : Nat) : Nat := unitAddress t.bar t.global u

def unit (u : Nat) : BoxPMU := .ofWords (rangeWords (t.memory (u + 1)) (t.unitStart u) discoverySize)

/-- The units in the order of the table, for each type. -/
def boxes : BoxPMUMap := fun boxType =>
  ((List.range t.global.maxUnits).map t.unit).filter (fun pmu => pmu.valid ∧ boxType = pmu.boxType)

/-- The global part and all units are read fully. -/
def Complete : Prop :=
  ReadFully (t.memory 0) t.bar.toNat discoverySize ∧
    ∀ u < t.global.maxUnits, ReadFully (t.memory (u + 1)) (t.unitStart u) discoverySize

instance : Decidable t.Complete := instDecidableAnd

end DiscoveryTable

section Runs

variable (mapNUMANodeToSocket : Int → Int)

/-- The tables of a socket that are read completely. -/
def completeTables (tables : List DiscoveryTable) (socket : Nat) : List DiscoveryTable :=
  tables.filter (fun t => t.Complete ∧ socketOf mapNUMANodeToSocket t.NUMANode = socket)

/-- The two vectors belong together: they have the same sockets, in each the same tables in the same order, all
of them read completely, and a table that is not leaves both as they were. -/
structure Paired (tables : List DiscoveryTable) : Prop where
  lengths : (discover mapNUMANodeToSocket tables).globalPMUs.length =
    (discover mapNUMANodeToSocket tables).boxPMUs.length
  global : ∀ socket, (discover mapNUMANodeToSocket tables).globalPMUs.getD socket [] =
    (completeTables mapNUMANodeToSocket tables socket).map DiscoveryTable.global
  boxes : ∀ socket, (discover mapNUMANodeToSocket tables).boxPMUs.getD socket [] =
    (completeTables mapNUMANodeToSocket tables socket).map DiscoveryTable.boxes
  failing : ∀ front t back, tables = front ++ t :: back → ¬ t.Complete →
    processTables mapNUMANodeToSocket (discover mapNUMANodeToSocket front) t = discover mapNUMANodeToSocket front

end Runs

/-! ## Vectors of sockets -/

section Vectors

variable {α : Type} (v : List (List α)) (socket : Nat) (a : α)

theorem length_pushAt : (pushAt v socket a).length = max (socket + 1) v.length := by
  rw [pushAt, List.length_modify, List.length_append, List.length_replicate]
  omega

theorem getD_pushAt (i : Nat) : (pushAt v socket a).getD i [] =
    if i = socket then v.getD i [] ++ [a] else v.getD i [] := by
  have padded : (v ++ .replicate (socket + 1 - v.length) []).getD i [] = v.getD i [] := by
    rw [List.getD_eq_getElem?_getD, List.getD_eq_getElem?_getD]
    by_cases within : i < v.length
    · rw [List.getElem?_append_left within]
    · rw [List.getElem?_append_right (Nat.not_lt.mp within), List.getElem?_eq_none (Nat.not_lt.mp within),
        List.getElem?_replicate]
      split <;> rfl
  rw [← padded, pushAt, List.getD_eq_getElem?_getD, List.getD_eq_getElem?_getD, List.getElem?_modify]
  by_cases same : i = socket
  · subst same
    have there : i < (v ++ List.replicate (i + 1 - v.length) []).length := by
      rw [List.length_append, List.length_replicate]
      omega
    rw [if_pos rfl, List.getElem?_eq_getElem there]
    simp
  · rw [if_neg same]
    simp [Ne.symm same]

theorem pushAt_ne : pushAt v socket a ≠ v := by
  intro same
  have entry := getD_pushAt v socket a socket
  rw [same, if_pos rfl] at entry
  exact absurd (congrArg List.length entry) (by simp)

end Vectors

/-! ## One table -/

section Tables

variable {mapNUMANodeToSocket : Int → Int} {t : DiscoveryTable} {s : UncorePMUDiscovery}

theorem rangeWords_length {m : Memory} {src : Nat} (full : ReadFully m src discoverySize) :
    (rangeWords m src discoverySize).length = 6 := by
  rw [rangeWords, length_wordsFrom, wordCount_of_lt full.2]
  rfl

/-- The units from `u` on are added in their order. -/
theorem readUnits_complete (n u : Nat) (full : ∀ k < n, ReadFully (t.memory (u + k + 1)) (t.unitStart (u + k)) discoverySize)
    {unit : List Word} (size : unit.length = 6) (boxPMUMap : BoxPMUMap) :
    readUnits t t.global n u unit boxPMUMap = .ok (fun boxType => boxPMUMap boxType ++
      ((List.range' u n).map t.unit).filter (fun pmu => pmu.valid ∧ boxType = pmu.boxType)) := by
  induction n generalizing u unit boxPMUMap with
  | zero => simp [readUnits]
  | succ n ih =>
      have first := full 0 (Nat.succ_pos n)
      have later : ∀ k < n, ReadFully (t.memory (u + 1 + k + 1)) (t.unitStart (u + 1 + k)) discoverySize := by
        intro k below
        have next := full (k + 1) (Nat.succ_lt_succ below)
        rwa [← Nat.add_assoc, Nat.add_right_comm u k 1] at next
      have copied : mmioMemcpy (t.memory (u + 1)) unit (unitAddress t.bar t.global u) discoverySize true =
          (rangeWords (t.memory (u + 1)) (t.unitStart u) discoverySize, .ok ()) := mmioMemcpy_full first size
      have filled : (rangeWords (t.memory (u + 1)) (t.unitStart u) discoverySize).length = 6 := rangeWords_length first
      rw [readUnits, copied]
      change readUnits t t.global n (u + 1) (rangeWords (t.memory (u + 1)) (t.unitStart u) discoverySize)
        (if (t.unit u).valid then boxPMUMap.push (t.unit u) else boxPMUMap) = _
      rw [ih (u + 1) later filled, List.range'_succ, List.map_cons]
      refine congrArg Except.ok (funext (fun boxType => ?_))
      by_cases valid : (t.unit u).valid
      · by_cases type : boxType = (t.unit u).boxType
        · simp [valid, type, BoxPMUMap.push]
        · simp [valid, type, BoxPMUMap.push]
      · simp [valid]

/-- A table that is read completely adds its two entries. -/
theorem processTables_complete (complete : t.Complete) : processTables mapNUMANodeToSocket s t =
    { globalPMUs := pushAt s.globalPMUs (socketOf mapNUMANodeToSocket t.NUMANode) t.global
      boxPMUs := pushAt s.boxPMUs (socketOf mapNUMANodeToSocket t.NUMANode) t.boxes } := by
  obtain ⟨global, units⟩ := complete
  have read : readUnits t t.global t.global.maxUnits 0 t.garbage (fun _ => []) = .ok t.boxes := by
    rw [readUnits_complete _ 0 (fun k below => by rw [Nat.zero_add]; exact units k below) t.size]
    refine congrArg Except.ok (funext (fun boxType => ?_))
    rw [List.nil_append, DiscoveryTable.boxes, List.range_eq_range']
  rw [processTables, mmioMemcpy_full global t.size]
  change (match readUnits t t.global t.global.maxUnits 0 t.garbage (fun _ => []) with
    | .error _ => _
    | .ok boxPMUMap => _) = _
  rw [read]
  rfl

/-- A table whose global part is not read adds nothing. -/
theorem processTables_unreadable (unreadable : ¬ Readable (t.memory 0) t.bar.toNat discoverySize) :
    processTables mapNUMANodeToSocket s t = s := by
  obtain ⟨e, failed⟩ := exists_error (fun ok => unreadable ((mmioMemcpy_ok_iff t.garbage).mp ok))
  rw [processTables, failed]

/-- A table whose global part is read adds that. -/
theorem processTables_readable (readable : Readable (t.memory 0) t.bar.toNat discoverySize) :
    processTables mapNUMANodeToSocket s t ≠ s := by
  have ok := (mmioMemcpy_ok_iff t.garbage).mpr readable
  intro same
  have kept := congrArg UncorePMUDiscovery.globalPMUs same
  rw [processTables, ok] at kept
  simp only at kept
  split at kept
  · exact pushAt_ne _ _ _ kept
  · exact pushAt_ne _ _ _ kept

end Tables

/-! ## All tables -/

section Discovery

variable {mapNUMANodeToSocket : Int → Int} {tables front : List DiscoveryTable} {t : DiscoveryTable}

theorem discover_concat : discover mapNUMANodeToSocket (front ++ [t]) =
    processTables mapNUMANodeToSocket (discover mapNUMANodeToSocket front) t := List.foldl_concat _ _ _ _

theorem completeTables_concat (socket : Nat) : completeTables mapNUMANodeToSocket (front ++ [t]) socket =
    if t.Complete ∧ socketOf mapNUMANodeToSocket t.NUMANode = socket then
      completeTables mapNUMANodeToSocket front socket ++ [t]
    else completeTables mapNUMANodeToSocket front socket := by
  rw [completeTables, List.filter_append]
  by_cases counted : t.Complete ∧ socketOf mapNUMANodeToSocket t.NUMANode = socket
  · rw [if_pos counted, List.filter_cons_of_pos (by simpa using counted)]
    rfl
  · rw [if_neg counted, List.filter_cons_of_neg (by simpa using counted), List.filter_nil, List.append_nil]
    rfl

/-- Every table whose global part is read is read completely. -/
def WholeOrNothing (tables : List DiscoveryTable) : Prop :=
  ∀ t ∈ tables, Readable (t.memory 0) t.bar.toNat discoverySize → t.Complete

/-- A vector of sockets with an entry for each complete table. -/
theorem getD_pushAt_complete {α : Type} {v : List (List α)} {entry : DiscoveryTable → α} (complete : t.Complete)
    (kept : ∀ socket, v.getD socket [] = (completeTables mapNUMANodeToSocket front socket).map entry) (socket : Nat) :
    (pushAt v (socketOf mapNUMANodeToSocket t.NUMANode) (entry t)).getD socket [] =
      (completeTables mapNUMANodeToSocket (front ++ [t]) socket).map entry := by
  rw [getD_pushAt, completeTables_concat, kept]
  by_cases same : socket = socketOf mapNUMANodeToSocket t.NUMANode
  · rw [if_pos same, if_pos ⟨complete, same.symm⟩, List.map_append]
    rfl
  · rw [if_neg same, if_neg (fun both => same both.2.symm)]

theorem paired_of_wholeOrNothing (whole : WholeOrNothing tables) : Paired mapNUMANodeToSocket tables := by
  have failing : ∀ front t back, tables = front ++ t :: back → ¬ t.Complete →
      processTables mapNUMANodeToSocket (discover mapNUMANodeToSocket front) t = discover mapNUMANodeToSocket front := by
    rintro front t back rfl incomplete
    have member : t ∈ front ++ t :: back := List.mem_append_right front List.mem_cons_self
    exact processTables_unreadable (fun readable => incomplete (whole t member readable))
  suffices pairs : _ ∧ _ ∧ _ from ⟨pairs.1, pairs.2.1, pairs.2.2, failing⟩
  clear failing
  induction tables using List.reverseRecOn with
  | nil => exact ⟨rfl, fun socket => rfl, fun socket => rfl⟩
  | append_singleton front t ih =>
      obtain ⟨lengths, global, boxes⟩ := ih (fun t member => whole t (List.mem_append_left _ member))
      rw [discover_concat]
      by_cases complete : t.Complete
      · rw [processTables_complete complete]
        refine ⟨?_, getD_pushAt_complete complete global, getD_pushAt_complete complete boxes⟩
        rw [length_pushAt, length_pushAt, lengths]
      · have unreadable := fun readable => complete (whole t (List.mem_append_right _ List.mem_cons_self) readable)
        have same : ∀ socket, completeTables mapNUMANodeToSocket (front ++ [t]) socket =
            completeTables mapNUMANodeToSocket front socket := by
          intro socket
          rw [completeTables_concat, if_neg (fun both => complete both.1)]
        rw [processTables_unreadable unreadable]
        simp only [same]
        exact ⟨lengths, global, boxes⟩

theorem wholeOrNothing_of_paired (paired : Paired mapNUMANodeToSocket tables) : WholeOrNothing tables := by
  intro t member readable
  by_contra incomplete
  obtain ⟨front, back, split⟩ := List.append_of_mem member
  exact processTables_readable readable (paired.failing front t back split incomplete)

/-- The tables are paired after every run exactly when no table of it fails after its global part. -/
theorem paired_iff (mapNUMANodeToSocket : Int → Int) (tables : List DiscoveryTable) :
    Paired mapNUMANodeToSocket tables ↔ WholeOrNothing tables :=
  ⟨wholeOrNothing_of_paired, paired_of_wholeOrNothing⟩

end Discovery

/-! ## A unit that is not read -/

/-- A table with one unit, whose words are bad. -/
def unreadUnit : DiscoveryTable where
  bar := 0x1000
  NUMANode := 0
  memory i := { mapping := fun _ _ => none
                read32 := fun address => if i ≠ 0 then badValue else if address = 0x1000 then 0x10100 else 0 }
  garbage := .replicate 6 0
  size := List.length_replicate

/-- A table without units. -/
def noUnits : DiscoveryTable where
  bar := 0x2000
  NUMANode := 0
  memory _ := { mapping := fun _ _ => none, read32 := fun _ => 0 }
  garbage := .replicate 6 0
  size := List.length_replicate

/-- The units of the second table come to be at the position of the global part of the first one. -/
theorem not_paired_unreadUnit :
    (discover id [unreadUnit, noUnits]).globalPMUs = [[unreadUnit.global, noUnits.global]] ∧
      (discover id [unreadUnit, noUnits]).boxPMUs.map List.length = [1] ∧ ¬ Paired id [unreadUnit, noUnits] := by
  have readable : Readable (unreadUnit.memory 0) unreadUnit.bar.toNat discoverySize := by decide +kernel
  have incomplete : ¬ unreadUnit.Complete := by decide +kernel
  refine ⟨by decide +kernel, by decide +kernel, fun paired => ?_⟩
  exact incomplete (wholeOrNothing_of_paired paired unreadUnit List.mem_cons_self readable)

end Pcm.PmuDiscovery
