import Mathlib.Data.List.Basic
import Pcm.Lib.KeyedMap
import Pcm.Lib.LengthWalk
import Pcm.Lib.LittleEndian

/-!
# The table of proximity domains

`readSRATTable` (`pci.cpp:388-496`) reads the NUMA nodes of PCI devices from a table of the firmware. The
subtables lie one after the other, each with its type and its length in the first two bytes.
-/

namespace Pcm.Srat

open StdString LengthWalk

/-- A read of a byte that is not in the table. -/
inductive Fault
  | outside
  deriving DecidableEq, Repr

/-- `std::memcpy` from a position of the table. -/
def memcpy (table : Bytes) (pos count : Nat) : Except Fault Bytes :=
  if pos + count ≤ table.length then .ok ((table.drop pos).take count) else .error .outside

/-- `ptr[0]` -/
def byteAt (table : Bytes) (pos : Nat) : Except Fault Nat :=
  match table[pos]? with
  | some b => .ok b.toNat
  | none => .error .outside

/-- segment(16) | bus(8) | device(5) | function(3) -/
def deviceKey (pciSegment pciBus pciDevice pciFunction : Nat) : Nat :=
  pciSegment <<< 16 ||| pciBus <<< 8 ||| pciDevice <<< 3 ||| pciFunction

/-- `pciToNuma` -/
abbrev NumaMap := KeyedMap Nat Nat

/-- One PCI device affinity structure of at least 16 bytes (`pci.cpp:463-485`). -/
def readAffinity (table : Bytes) (ptr : Nat) (pciToNuma : NumaMap) : Except Fault NumaMap := do
  let proximityDomain ← memcpy table (ptr + 4) 4
  let pciSegment ← memcpy table (ptr + 8) 2
  let pciBus ← byteAt table (ptr + 10)
  let deviceFunction ← byteAt table (ptr + 11)
  let key := deviceKey (littleEndian pciSegment) pciBus (deviceFunction >>> 3 &&& 0x1F) (deviceFunction &&& 0x07)
  return pciToNuma.put key (littleEndian proximityDomain)

/-- One iteration (`pci.cpp:437-493`). -/
def subtableStep (table : Bytes) (endPtr : Nat) (s : Nat × NumaMap) :
    Except Fault (Next (Nat × NumaMap) NumaMap) :=
  let (ptr, pciToNuma) := s
  if ptr + 2 ≤ endPtr then do
    let type ← byteAt table ptr
    let length ← byteAt table (ptr + 1)
    if endPtr < ptr + length then return .done pciToNuma
    else if type = 2 then
      if length < 16 then return .again (ptr + length, pciToNuma)
      else return .again (ptr + length, ← readAffinity table ptr pciToNuma)
    else return .again (ptr + length, pciToNuma)
  else return .done pciToNuma

/-- The length in the header of a table. -/
def tableLength (table : Bytes) : Nat := littleEndian ((table.drop 4).take 4)

def endPtr (table : Bytes) : Nat := min table.length (tableLength table)

/-- `readSRATTable`, for the table that the firmware gives and the number of bytes that it reads of it. -/
def readSRATTable (tableBuffer : Bytes) (bytesRead : Nat) : Bounded Fault NumaMap :=
  if tableBuffer.length = 0 then pure []
  else if bytesRead = 0 ∨ bytesRead ≠ tableBuffer.length then pure []
  else if tableBuffer.length < 36 then pure []
  else if tableBuffer.take 4 ≠ ascii "SRAT" then pure []
  else .loop (subtableStep tableBuffer (endPtr tableBuffer)) (48, [])

/-! ## Devices -/

/-- A PCI device, by the widths of the parts of its key. -/
structure Device where
  segment : Nat
  bus : Nat
  device : Nat
  function : Nat
  segment_lt : segment < 2 ^ 16
  bus_lt : bus < 2 ^ 8
  device_lt : device < 2 ^ 5
  function_lt : function < 2 ^ 3
  deriving DecidableEq, Repr

def Device.key (d : Device) : Nat := deviceKey d.segment d.bus d.device d.function

theorem deviceKey_eq {segment bus device function : Nat} (bus_lt : bus < 2 ^ 8) (device_lt : device < 2 ^ 5)
    (function_lt : function < 2 ^ 3) :
    deviceKey segment bus device function = segment * 2 ^ 16 + (bus * 2 ^ 8 + (device * 2 ^ 3 + function)) := by
  have low : device <<< 3 ||| function = device * 2 ^ 3 + function := by
    rw [← Nat.shiftLeft_add_eq_or_of_lt function_lt, Nat.shiftLeft_eq]
  have middle : bus <<< 8 ||| (device * 2 ^ 3 + function) = bus * 2 ^ 8 + (device * 2 ^ 3 + function) := by
    rw [← Nat.shiftLeft_add_eq_or_of_lt (by omega), Nat.shiftLeft_eq]
  rw [deviceKey, Nat.or_assoc, Nat.or_assoc, low, middle, ← Nat.shiftLeft_add_eq_or_of_lt (by omega), Nat.shiftLeft_eq]

theorem key_injective : Function.Injective Device.key := by
  rintro ⟨s, b, d, f, s_lt, b_lt, d_lt, f_lt⟩ ⟨s', b', d', f', s_lt', b_lt', d_lt', f_lt'⟩ same
  simp only [Device.key, deviceKey_eq b_lt d_lt f_lt, deviceKey_eq b_lt' d_lt' f_lt'] at same
  simp only [Device.mk.injEq]
  omega

/-! ## Subtables -/

/-- The byte at a position of a table. -/
def value (table : Bytes) (pos : Nat) : Nat := (table.getD pos 0).toNat

/-- The length of the subtable at a position. -/
def subtableLength (table : Bytes) (pos : Nat) : Nat := value table (pos + 1)

theorem value_lt (table : Bytes) (pos : Nat) : value table pos < 2 ^ 8 := UInt8.toNat_lt _

/-- A complete PCI device affinity structure is at a position. -/
def IsAffinity (table : Bytes) (pos : Nat) : Prop := value table pos = 2 ∧ 16 ≤ subtableLength table pos

instance (table : Bytes) (pos : Nat) : Decidable (IsAffinity table pos) := instDecidableAnd

theorem device_lt (table : Bytes) (pos : Nat) : value table pos / 2 ^ 3 < 2 ^ 5 := by
  have := value_lt table pos
  omega

theorem function_lt (table : Bytes) (pos : Nat) : value table pos % 2 ^ 3 < 2 ^ 3 := Nat.mod_lt _ (by decide)

/-- The device of an affinity structure. -/
def deviceAt (table : Bytes) (pos : Nat) : Device where
  segment := littleEndian ((table.drop (pos + 8)).take 2)
  bus := value table (pos + 10)
  device := value table (pos + 11) / 2 ^ 3
  function := value table (pos + 11) % 2 ^ 3
  segment_lt := littleEndian_take_lt _ 2
  bus_lt := value_lt _ _
  device_lt := device_lt _ _
  function_lt := function_lt _ _

/-- The proximity domain of an affinity structure. -/
def domainAt (table : Bytes) (pos : Nat) : Nat := littleEndian ((table.drop (pos + 4)).take 4)

/-- The domain of the last affinity structure for a device among some subtables. -/
def lastDomain (table : Bytes) (positions : List Nat) (d : Device) : Option Nat :=
  ((positions.filter (fun pos => IsAffinity table pos ∧ deviceAt table pos = d)).getLast?).map (domainAt table)

/-- There are the header and the signature of such a table. -/
def IsSrat (table : Bytes) : Prop := 36 ≤ table.length ∧ table.take 4 = ascii "SRAT"

instance (table : Bytes) : Decidable (IsSrat table) := instDecidableAnd

/-- The subtables before the first malformed one: one that does not hold its own type and length, or that goes
beyond the end of the table. -/
def wellFormed (table : Bytes) : List Nat :=
  if IsSrat table then items (subtableLength table) 2 (endPtr table) 1 48 else []

/-- The position of the first malformed subtable, or the end. -/
def firstMalformed (table : Bytes) : Nat := rest (subtableLength table) 2 (endPtr table) 1 48

/-- What is read as subtables after the first malformed one, if that has the length 1. -/
def afterMalformed (table : Bytes) : List Nat := items (subtableLength table) 2 (endPtr table) 0 (firstMalformed table)

/-- What is read comes to a subtable of length 0. -/
def ZeroLength (table : Bytes) : Prop :=
  Stuck (subtableLength table) 2 (endPtr table) (rest (subtableLength table) 2 (endPtr table) 0 48)

/-- The map of the last structure for each device before the first malformed subtable. -/
def Parses (table : Bytes) (pciToNuma : NumaMap) : Prop :=
  ∀ d : Device, pciToNuma.lookup d.key = lastDomain table (wellFormed table) d

/-! ## One subtable -/

section Steps

variable {table : Bytes} {pos count : Nat}

theorem byteAt_within (within : pos < table.length) : byteAt table pos = .ok (value table pos) := by
  rw [byteAt, value, List.getD_eq_getElem?_getD, List.getElem?_eq_getElem within]
  rfl

theorem memcpy_within (within : pos + count ≤ table.length) :
    memcpy table pos count = .ok ((table.drop pos).take count) := if_pos within

/-- What one subtable adds. -/
def record (table : Bytes) (pciToNuma : NumaMap) (pos : Nat) : NumaMap :=
  if IsAffinity table pos then pciToNuma.put (deviceAt table pos).key (domainAt table pos) else pciToNuma

theorem readAffinity_within (within : pos + 12 ≤ table.length) (pciToNuma : NumaMap) :
    readAffinity table pos pciToNuma = .ok (pciToNuma.put (deviceAt table pos).key (domainAt table pos)) := by
  have device : value table (pos + 11) >>> 3 &&& 0x1F = value table (pos + 11) / 2 ^ 3 := by
    rw [Nat.shiftRight_eq_div_pow, show 0x1F = 2 ^ 5 - 1 from rfl, Nat.and_two_pow_sub_one_eq_mod]
    exact Nat.mod_eq_of_lt (device_lt table _)
  have function : value table (pos + 11) &&& 0x07 = value table (pos + 11) % 2 ^ 3 :=
    Nat.and_two_pow_sub_one_eq_mod _ 3
  rw [readAffinity, memcpy_within (by omega), memcpy_within (by omega), byteAt_within (by omega),
    byteAt_within (by omega)]
  change Except.ok _ = _
  rw [device, function]
  rfl

/-- The loop goes over the subtables and reads nothing outside of the table. -/
theorem visits_subtableStep (table : Bytes) :
    Visits (subtableLength table) 2 (endPtr table) (record table) (subtableStep table (endPtr table)) := by
  intro pos pciToNuma
  have inside : endPtr table ≤ table.length := Nat.min_le_left _ _
  rw [subtableStep]
  by_cases header : pos + 2 ≤ endPtr table
  · simp only [if_pos header]
    rw [byteAt_within (by omega), byteAt_within (by omega)]
    change (if endPtr table < pos + subtableLength table pos then _ else _) = _
    by_cases within : pos + subtableLength table pos ≤ endPtr table
    · have link : next (subtableLength table) 2 (endPtr table) pos = some (pos + subtableLength table pos) :=
        if_pos ⟨header, within⟩
      rw [if_neg (Nat.not_lt.mpr within), link, record]
      change (if value table pos = 2 then _ else _) = _
      by_cases type : value table pos = 2
      · rw [if_pos type]
        change (if subtableLength table pos < 16 then _ else _) = _
        by_cases short : subtableLength table pos < 16
        · have incomplete : ¬ IsAffinity table pos := fun affinity => Nat.not_le.mpr short affinity.2
          rw [if_pos short, if_neg incomplete]
          rfl
        · have complete : IsAffinity table pos := ⟨type, Nat.not_lt.mp short⟩
          rw [if_neg short, if_pos complete, readAffinity_within (by omega)]
          rfl
      · have other : ¬ IsAffinity table pos := fun affinity => type affinity.1
        rw [if_neg type, if_neg other]
        rfl
    · have link : next (subtableLength table) 2 (endPtr table) pos = none := if_neg (fun fits => within fits.2)
      rw [if_pos (Nat.not_le.mp within), link]
      rfl
  · have link : next (subtableLength table) 2 (endPtr table) pos = none := if_neg (fun fits => header fits.1)
    simp only [if_neg header, link]
    rfl

theorem lookup_put (pciToNuma : NumaMap) (key key' domain : Nat) :
    (pciToNuma.put key domain).lookup key' = if key' = key then some domain else pciToNuma.lookup key' := by
  rw [KeyedMap.put, List.lookup_cons]
  by_cases same : key' = key
  · rw [if_pos same, same, beq_self_eq_true]
  · rw [if_neg same, beq_false_of_ne same]

theorem lookup_record (pciToNuma : NumaMap) (d : Device) : (record table pciToNuma pos).lookup d.key =
    if IsAffinity table pos ∧ deviceAt table pos = d then some (domainAt table pos) else pciToNuma.lookup d.key := by
  rw [record]
  by_cases affinity : IsAffinity table pos
  · rw [if_pos affinity, lookup_put]
    by_cases same : deviceAt table pos = d
    · rw [if_pos (congrArg Device.key same.symm), if_pos ⟨affinity, same⟩]
    · rw [if_neg (fun keys => same (key_injective keys).symm), if_neg (fun both => same both.2)]
  · rw [if_neg affinity, if_neg (fun both => affinity both.1)]

/-- The last structure for a device is the one that counts. -/
theorem lookup_foldl_record (positions : List Nat) (pciToNuma : NumaMap) (d : Device) :
    (positions.foldl (record table) pciToNuma).lookup d.key =
      (lastDomain table positions d).or (pciToNuma.lookup d.key) := by
  induction positions using List.reverseRecOn with
  | nil => rfl
  | append_singleton positions pos ih =>
      rw [List.foldl_concat, lookup_record, ih, lastDomain, lastDomain, List.filter_append]
      by_cases here : IsAffinity table pos ∧ deviceAt table pos = d
      · rw [if_pos here, List.filter_cons_of_pos (by simpa using here), List.filter_nil, List.getLast?_concat]
        rfl
      · rw [if_neg here, List.filter_cons_of_neg (by simpa using here), List.filter_nil, List.append_nil]

theorem lastDomain_append (front back : List Nat) (d : Device) :
    lastDomain table (front ++ back) d = (lastDomain table back d).or (lastDomain table front d) := by
  rw [lastDomain, List.filter_append, List.getLast?_append, Option.map_or]
  rfl

end Steps

/-! ## Whole tables -/

section Tables

variable {table : Bytes}

/-- What is done with the whole table, where it is one. -/
theorem readSRATTable_srat (srat : IsSrat table) :
    readSRATTable table table.length = .loop (subtableStep table (endPtr table)) (48, []) := by
  obtain ⟨header, signature⟩ := srat
  rw [readSRATTable, if_neg (by omega), if_neg (by omega), if_neg (by omega), if_neg (not_not.mpr signature)]

theorem readSRATTable_other (other : ¬ IsSrat table) : readSRATTable table table.length = pure [] := by
  rw [readSRATTable]
  split
  · rfl
  split
  · rfl
  split
  · rfl
  rename_i header
  rw [if_pos (fun signature => other ⟨Nat.not_lt.mp header, signature⟩)]

theorem ends_readSRATTable_iff (srat : IsSrat table) :
    (readSRATTable table table.length).Ends ↔ ¬ ZeroLength table := by
  rw [readSRATTable_srat srat]
  exact (visits_subtableStep table).ends_iff 48 []

theorem returns_readSRATTable (srat : IsSrat table) (moves : ¬ ZeroLength table) :
    (readSRATTable table table.length).Returns
      (.ok ((wellFormed table ++ afterMalformed table).foldl (record table) [])) := by
  rw [readSRATTable_srat srat, wellFormed, if_pos srat, afterMalformed, firstMalformed, ← items_append]
  exact (visits_subtableStep table).returns moves []

theorem stable_readSRATTable (table : Bytes) (bytesRead : Nat) : (readSRATTable table bytesRead).Stable := by
  rw [readSRATTable]
  split
  · exact Bounded.stable_pure _
  split
  · exact Bounded.stable_pure _
  split
  · exact Bounded.stable_pure _
  split
  · exact Bounded.stable_pure _
  · exact Bounded.stable_loop _ _

/-- The structures after the first malformed subtable change nothing for a device: there is none for it, or the
last one says the same as the last one before. -/
def Unchanged (table : Bytes) (d : Device) : Prop :=
  lastDomain table (afterMalformed table) d = none ∨
    lastDomain table (afterMalformed table) d = lastDomain table (wellFormed table) d

theorem or_eq_right_iff {α : Type} {a b : Option α} : a.or b = b ↔ a = none ∨ a = b := by
  cases a with
  | none => simp
  | some a => simp

theorem parses_foldl_iff : Parses table ((wellFormed table ++ afterMalformed table).foldl (record table) []) ↔
    ∀ d, Unchanged table d := by
  refine forall_congr' (fun d => ?_)
  rw [lookup_foldl_record, lastDomain_append, List.lookup_nil, Option.or_none, or_eq_right_iff]
  rfl

/-- The keys are those of the devices, and the table is read, without a read outside of it, as the last
structures before the first malformed subtable, exactly when no subtable of length 0 is come to and what
follows a first malformed one of length 1 changes nothing. -/
theorem reads_iff (table : Bytes) :
    (Function.Injective Device.key ∧
        ∃ pciToNuma, (readSRATTable table table.length).Returns (.ok pciToNuma) ∧ Parses table pciToNuma) ↔
      (IsSrat table → ¬ ZeroLength table ∧ ∀ d, Unchanged table d) := by
  by_cases srat : IsSrat table
  · constructor
    · rintro ⟨-, pciToNuma, returns, parses⟩ -
      have moves := (ends_readSRATTable_iff srat).mp ⟨_, returns⟩
      cases returns.unique (stable_readSRATTable table _) (returns_readSRATTable srat moves)
      exact ⟨moves, parses_foldl_iff.mp parses⟩
    · intro fine
      obtain ⟨moves, unchanged⟩ := fine srat
      exact ⟨key_injective, _, returns_readSRATTable srat moves, parses_foldl_iff.mpr unchanged⟩
  · refine iff_of_true ⟨key_injective, [], ⟨0, ?_⟩, fun d => ?_⟩ (fun is => absurd is srat)
    · rw [readSRATTable_other srat]
      rfl
    · rw [wellFormed, if_neg srat]
      rfl

end Tables

/-- A table of 50 bytes with a subtable of length 0. -/
def zeroLengthTable : Bytes := ascii "SRAT" ++ [50, 0, 0, 0] ++ .replicate 42 0

theorem readSRATTable_endless : IsSrat zeroLengthTable ∧
    ¬ (readSRATTable zeroLengthTable zeroLengthTable.length).Ends := by
  have srat : IsSrat zeroLengthTable := by decide +kernel
  refine ⟨srat, fun ends => (ends_readSRATTable_iff srat).mp ends ?_⟩
  have stuck : Stuck (subtableLength zeroLengthTable) 2 (endPtr zeroLengthTable) 48 :=
    ⟨by decide +kernel, by decide +kernel⟩
  have last : ¬ Fits (subtableLength zeroLengthTable) 2 (endPtr zeroLengthTable) 0 48 :=
    fun fits => absurd stuck.2 (Nat.ne_of_gt fits.2.1)
  rw [ZeroLength, rest_last last]
  exact stuck

end Pcm.Srat
