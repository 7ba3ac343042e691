import Mathlib.Data.List.TakeWhile
import Pcm.Lib.LittleEndian

/-!
# The table of memory mapped configuration spaces

`PciHandleMM::readMCFG` (`pci.cpp:955-1000`) reads a header and as many records as the header says into the
static `mcfgRecords`, which is the sign as well that the table was read. Each `read` gives as many bytes as it
likes, or fails.
-/

namespace Pcm.Pci

open StdString

/-- The bytes of an object after its first ones were stored. -/
def overwrite (old stored : Bytes) : Bytes := (stored ++ old.drop stored.length).take old.length

theorem length_overwrite (old stored : Bytes) : (overwrite old stored).length = old.length := by
  rw [overwrite, List.length_take, List.length_append, List.length_drop]
  omega

theorem overwrite_full {old stored : Bytes} (full : old.length = stored.length) : overwrite old stored = stored := by
  rw [overwrite, full, List.take_left]

/-- `sizeof(MCFGHeader)` -/
def headerSize : Nat := 44

/-- `sizeof(MCFGRecord)` -/
def recordSize : Nat := 16

/-- `struct MCFGHeader` (`types.h:1537-1559`), as its bytes. -/
structure MCFGHeader where
  bytes : Bytes
  size : bytes.length = headerSize
  deriving DecidableEq, Repr

/-- The length in the bytes of a header. -/
def lengthField (bytes : Bytes) : Nat := littleEndian ((bytes.drop 4).take 4)

def MCFGHeader.length (h : MCFGHeader) : Nat := lengthField h.bytes

def MCFGHeader.store (h : MCFGHeader) (stored : Bytes) : MCFGHeader :=
  ⟨overwrite h.bytes stored, (length_overwrite h.bytes stored).trans h.size⟩

def MCFGHeader.nrecords (h : MCFGHeader) : Nat := minus h.length headerSize / recordSize % 2 ^ 32

/-- `struct MCFGRecord` (`types.h:1519-1535`) -/
structure MCFGRecord where
  baseAddress : Nat
  PCISegmentGroupNumber : Nat
  startBusNumber : Nat
  endBusNumber : Nat
  reserved : Bytes
  deriving DecidableEq, Repr

def MCFGRecord.ofBytes (bytes : Bytes) : MCFGRecord where
  baseAddress := littleEndian (bytes.take 8)
  PCISegmentGroupNumber := littleEndian ((bytes.drop 8).take 2)
  startBusNumber := littleEndian ((bytes.drop 10).take 1)
  endBusNumber := littleEndian ((bytes.drop 11).take 1)
  reserved := (bytes.drop 12).take 4

/-- The record that a `read` makes of a new one. -/
def MCFGRecord.stored (bytes : Bytes) : MCFGRecord := .ofBytes (overwrite (.replicate recordSize 0) bytes)

/-- An open file, and how many bytes each `read` gives at most, none where it fails. -/
structure TableFile where
  content : Bytes
  grants : Nat → Option Nat

/-- The bytes that the `i`-th `read` stores from a position on; none when it returns -1. -/
def TableFile.read (t : TableFile) (i pos count : Nat) : Option Bytes :=
  (t.grants i).map (fun most => (t.content.drop pos).take (min most count))

/-- The static members `mcfgHeader` and `mcfgRecords`. -/
structure McfgTable where
  mcfgHeader : MCFGHeader
  mcfgRecords : List MCFGRecord
  deriving DecidableEq, Repr

def cannotOpen : StdException :=
  .runtime_error (ascii "cannot open any of /[pcm]/sys/firmware/acpi/tables/MCFG* files!")

def cannotRead : StdException := .runtime_error (ascii "PCM Error: Cannot read MCFG-table")

def cannotRead2 : StdException := .runtime_error (ascii "PCM Error: Cannot read MCFG-table (2)")

/-- The loop over the segments, `n` of them from the `i`-th `read` on. -/
def readRecords (t : TableFile) : Nat → Nat → Nat → List MCFGRecord → Except StdException Unit × List MCFGRecord
  | 0, _, _, records => (.ok (), records)
  | n + 1, i, pos, records =>
      let read := t.read i pos recordSize
      -- Only 0 is tested: a `read` that fails leaves the record as it was constructed.
      if read = some [] then (.error cannotRead2, records)
      else readRecords t n (i + 1) (pos + (read.getD []).length) (records ++ [.stored (read.getD [])])

/-- The rest of `readMCFG`, after a header of which these bytes were read. -/
def readSegments (t : TableFile) (s : McfgTable) (stored : Bytes) : Except StdException Unit × McfgTable :=
  let mcfgHeader := s.mcfgHeader.store stored
  let segments := readRecords t mcfgHeader.nrecords 1 stored.length s.mcfgRecords
  (segments.1, ⟨mcfgHeader, segments.2⟩)

/-- `PciHandleMM::readMCFG`, with the file that `openMcfgTable` opens. -/
def readMCFG (file : Option TableFile) (s : McfgTable) : Except StdException Unit × McfgTable :=
  if s.mcfgRecords ≠ [] then (.ok (), s)
  else match file with
    | none => (.error cannotOpen, s)
    | some t =>
        if t.read 0 0 headerSize = some [] then (.error cannotRead, s)
        else readSegments t s ((t.read 0 0 headerSize).getD [])

/-! ## What is read -/

/-- What `n` times `read` give for records, the one after the other. -/
def deliveries (t : TableFile) : Nat → Nat → Nat → List (Option Bytes)
  | 0, _, _ => []
  | n + 1, i, pos =>
      let read := t.read i pos recordSize
      read :: deliveries t n (i + 1) (pos + (read.getD []).length)

/-- The record that such a `read` makes. -/
def delivered (read : Option Bytes) : MCFGRecord := .stored (read.getD [])

section Records

variable (t : TableFile) (n i pos : Nat) (records : List MCFGRecord)

theorem length_deliveries : (deliveries t n i pos).length = n := by
  induction n generalizing i pos with
  | zero => rfl
  | succ n ih => exact congrArg (· + 1) (ih _ _)

/-- The loop throws at the first empty `read`, and keeps the records before it. -/
theorem readRecords_eq : readRecords t n i pos records =
    (if some [] ∈ deliveries t n i pos then .error cannotRead2 else .ok (),
      records ++ ((deliveries t n i pos).takeWhile (fun read => read ≠ some [])).map delivered) := by
  induction n generalizing i pos records with
  | zero => simp [readRecords, deliveries]
  | succ n ih =>
      rw [readRecords, deliveries]
      by_cases empty : t.read i pos recordSize = some []
      · simp [empty]
      · rw [if_neg empty, ih, List.takeWhile_cons_of_pos (by simpa using empty)]
        simp only [List.mem_cons, Ne.symm empty, false_or, List.map_cons, List.append_assoc]
        rfl

end Records

/-! ## All or nothing -/

/-- The number of records in a table of its length. -/
def recordCount (content : Bytes) : Nat := (lengthField content - headerSize) / recordSize

/-- The bytes of a record in a table. -/
def recordBytes (content : Bytes) (i : Nat) : Bytes := (content.drop (headerSize + recordSize * i)).take recordSize

/-- The records that a table contains. -/
def tableRecords (content : Bytes) : List MCFGRecord :=
  (List.range (recordCount content)).map (fun i => .ofBytes (recordBytes content i))

/-- The length of a table is not smaller than the header, and all its records are there. -/
structure Contained (content : Bytes) : Prop where
  header : headerSize ≤ lengthField content
  records : headerSize + recordSize * recordCount content ≤ content.length

/-- A call that finds the table not read yet throws and leaves it so, or leaves the records of the table. -/
def AllOrNothing (t : TableFile) (mcfgHeader : MCFGHeader) : Prop :=
  (∃ e, (readMCFG (some t) ⟨mcfgHeader, []⟩).1 = .error e ∧ (readMCFG (some t) ⟨mcfgHeader, []⟩).2.mcfgRecords = []) ∨
    ((readMCFG (some t) ⟨mcfgHeader, []⟩).1 = .ok () ∧ Contained t.content ∧
      (readMCFG (some t) ⟨mcfgHeader, []⟩).2.mcfgRecords = tableRecords t.content)

/-- The header after the first `read`. -/
def headerReceived (t : TableFile) (mcfgHeader : MCFGHeader) : MCFGHeader :=
  mcfgHeader.store ((t.read 0 0 headerSize).getD [])

/-- What the other `read`s give, as many as that header asks for. -/
def recordsReceived (t : TableFile) (mcfgHeader : MCFGHeader) : List (Option Bytes) :=
  deliveries t (headerReceived t mcfgHeader).nrecords 1 ((t.read 0 0 headerSize).getD []).length

/-- As many records are asked for as the table has, and each `read` gives something, at least what is not zero
in its record. -/
structure Received (t : TableFile) (mcfgHeader : MCFGHeader) : Prop where
  count : (headerReceived t mcfgHeader).nrecords = recordCount t.content
  nonempty : some [] ∉ recordsReceived t mcfgHeader
  bytes : ∀ (i : Nat) (read : Option Bytes), (recordsReceived t mcfgHeader)[i]? = some read →
    delivered read = .ofBytes (recordBytes t.content i)

section Calls

variable {t : TableFile} {mcfgHeader : MCFGHeader} {file : Option TableFile} {s : McfgTable}

theorem readMCFG_uninitialized : readMCFG (some t) ⟨mcfgHeader, []⟩ =
    if t.read 0 0 headerSize = some [] then (.error cannotRead, ⟨mcfgHeader, []⟩)
    else readSegments t ⟨mcfgHeader, []⟩ ((t.read 0 0 headerSize).getD []) := by
  rw [readMCFG, if_neg (not_not.mpr rfl)]

theorem readMCFG_emptyHeader (empty : t.read 0 0 headerSize = some []) :
    readMCFG (some t) ⟨mcfgHeader, []⟩ = (.error cannotRead, ⟨mcfgHeader, []⟩) := by
  rw [readMCFG_uninitialized, if_pos empty]

theorem readMCFG_received (some' : t.read 0 0 headerSize ≠ some []) : readMCFG (some t) ⟨mcfgHeader, []⟩ =
    (if some [] ∈ recordsReceived t mcfgHeader then .error cannotRead2 else .ok (),
      ⟨headerReceived t mcfgHeader,
        ((recordsReceived t mcfgHeader).takeWhile (fun read => read ≠ some [])).map delivered⟩) := by
  rw [readMCFG_uninitialized, if_neg some', readSegments, readRecords_eq, List.nil_append]
  rfl

/-- The records are those of the table if each `read` gives its record. -/
theorem map_delivered_eq_iff : (recordsReceived t mcfgHeader).map delivered = tableRecords t.content ↔
    (headerReceived t mcfgHeader).nrecords = recordCount t.content ∧
      ∀ (i : Nat) (read : Option Bytes), (recordsReceived t mcfgHeader)[i]? = some read →
        delivered read = .ofBytes (recordBytes t.content i) := by
  have length : (recordsReceived t mcfgHeader).length = (headerReceived t mcfgHeader).nrecords :=
    length_deliveries _ _ _ _
  constructor
  · intro same
    have count := congrArg List.length same
    rw [List.length_map, length, tableRecords, List.length_map, List.length_range] at count
    refine ⟨count, fun i read found => ?_⟩
    have below : i < recordCount t.content := by
      rw [← count, ← length]
      exact (List.getElem?_eq_some_iff.mp found).1
    have entry := congrArg (fun records : List MCFGRecord => records[i]?) same
    simp only [List.getElem?_map, found, Option.map_some, tableRecords, List.getElem?_range below] at entry
    exact Option.some.inj entry
  · rintro ⟨count, bytes⟩
    refine List.ext_getElem? (fun i => ?_)
    rw [tableRecords, List.getElem?_map, List.getElem?_map]
    by_cases below : i < recordCount t.content
    · have within : i < (recordsReceived t mcfgHeader).length := by rw [length, count]; exact below
      rw [List.getElem?_range below, List.getElem?_eq_getElem within]
      exact congrArg some (bytes i _ (List.getElem?_eq_getElem within))
    · have beyond : (recordsReceived t mcfgHeader).length ≤ i := by rw [length, count]; exact Nat.not_lt.mp below
      rw [List.getElem?_eq_none beyond, List.getElem?_eq_none (by rw [List.length_range]; exact Nat.not_lt.mp below)]
      rfl

theorem received_iff : Received t mcfgHeader ↔ some [] ∉ recordsReceived t mcfgHeader ∧
    (recordsReceived t mcfgHeader).map delivered = tableRecords t.content := by
  rw [map_delivered_eq_iff]
  exact ⟨fun r => ⟨r.nonempty, r.count, r.bytes⟩, fun h => ⟨h.2.1, h.1, h.2.2⟩⟩

theorem takeWhile_eq_nil_iff_head? {α : Type} {p : α → Bool} {l : List α} :
    l.takeWhile p = [] ↔ ∀ a, l.head? = some a → p a = false := by
  cases l with
  | nil => simp
  | cons a l => cases holds : p a <;> simp [holds]

/-- A call is all or nothing exactly when the first `read` that gives nothing is one of the first two, or when
the table contains its records and they are received. -/
theorem allOrNothing_iff (t : TableFile) (mcfgHeader : MCFGHeader) : AllOrNothing t mcfgHeader ↔
    t.read 0 0 headerSize = some [] ∨ (recordsReceived t mcfgHeader).head? = some (some []) ∨
      (Contained t.content ∧ Received t mcfgHeader) := by
  by_cases header : t.read 0 0 headerSize = some []
  · have thrown : readMCFG (some t) ⟨mcfgHeader, []⟩ = (.error cannotRead, ⟨mcfgHeader, []⟩) :=
      readMCFG_emptyHeader header
    exact iff_of_true (Or.inl ⟨cannotRead, by rw [thrown], by rw [thrown]⟩) (Or.inl header)
  rw [AllOrNothing, readMCFG_received header, received_iff]
  by_cases empty : some [] ∈ recordsReceived t mcfgHeader
  · simp only [if_pos empty, header, false_or, not_not.mpr empty, false_and, and_false, or_false, reduceCtorEq]
    rw [List.map_eq_nil_iff, takeWhile_eq_nil_iff_head?]
    constructor
    · rintro ⟨-, -, first⟩
      obtain ⟨read, others, same⟩ := List.exists_cons_of_ne_nil (List.ne_nil_of_mem empty)
      rw [same] at first ⊢
      simpa using first read rfl
    · intro first
      refine ⟨cannotRead2, rfl, fun read found => ?_⟩
      rw [first] at found
      cases found
      rfl
  · have all : (recordsReceived t mcfgHeader).takeWhile (fun read => read ≠ some []) = recordsReceived t mcfgHeader := by
      refine List.takeWhile_eq_self_iff.mpr (fun read member => ?_)
      exact decide_eq_true (fun same => empty (same ▸ member))
    have later : (recordsReceived t mcfgHeader).head? ≠ some (some []) :=
      fun first => empty (List.mem_of_mem_head? first)
    simp only [if_false, all, header, later, empty, false_or, not_false_eq_true, true_and, reduceCtorEq, false_and,
      exists_false]

end Calls

/-! ## Full reads -/

section Full

variable {t : TableFile} {mcfgHeader : MCFGHeader}

/-- No `read` gives less than is asked for while there is as much. -/
def Full (t : TableFile) : Prop := ∀ i, ∃ most, t.grants i = some most ∧ headerSize ≤ most

theorem read_full (full : Full t) (i pos : Nat) {count : Nat} (le : count ≤ headerSize) :
    t.read i pos count = some ((t.content.drop pos).take count) := by
  obtain ⟨most, grants, enough⟩ := full i
  rw [TableFile.read, grants, Option.map_some, Nat.min_eq_right (Nat.le_trans le enough)]

theorem length_recordBytes {content : Bytes} {i : Nat} (within : headerSize + recordSize * (i + 1) ≤ content.length) :
    (recordBytes content i).length = recordSize := by
  rw [recordBytes, List.length_take, List.length_drop]
  simp only [headerSize, recordSize] at *
  omega

theorem deliveries_full (full : Full t) (n i k : Nat)
    (within : headerSize + recordSize * (k + n) ≤ t.content.length) :
    deliveries t n i (headerSize + recordSize * k) =
      (List.range' k n).map (fun j => some (recordBytes t.content j)) := by
  induction n generalizing i k with
  | zero => rfl
  | succ n ih =>
      have given : t.read i (headerSize + recordSize * k) recordSize = some (recordBytes t.content k) :=
        read_full full i _ (by decide)
      have next : headerSize + recordSize * k + recordSize = headerSize + recordSize * (k + 1) := by
        rw [Nat.mul_succ, Nat.add_assoc]
      have enough : headerSize + recordSize * (k + 1) ≤ t.content.length :=
        Nat.le_trans (Nat.add_le_add_left (Nat.mul_le_mul_left _ (by omega)) _) within
      have others : headerSize + recordSize * (k + 1 + n) ≤ t.content.length := by
        rwa [Nat.add_assoc, Nat.add_comm 1]
      rw [deliveries, given, List.range'_succ, List.map_cons]
      simp only [Option.getD_some]
      rw [length_recordBytes enough, next, ih (i + 1) (k + 1) others]

theorem nrecords_eq {h : MCFGHeader} (enough : headerSize ≤ h.length) :
    h.nrecords = (h.length - headerSize) / recordSize := by
  have bound : h.length < 2 ^ 32 := littleEndian_take_lt (h.bytes.drop 4) 4
  have difference : minus h.length headerSize = h.length - headerSize := by
    rw [minus]
    simp only [headerSize] at *
    omega
  rw [MCFGHeader.nrecords, difference, recordSize]
  exact Nat.mod_eq_of_lt (by omega)

theorem delivered_full {bytes : Bytes} (full : bytes.length = recordSize) : delivered (some bytes) = .ofBytes bytes := by
  rw [delivered, MCFGRecord.stored, Option.getD_some, overwrite_full (by rw [List.length_replicate, full])]

theorem lengthField_take {content : Bytes} : lengthField (content.take headerSize) = lengthField content := by
  rw [lengthField, lengthField, headerSize, List.drop_take, List.take_take]
  rfl

/-- Where each `read` is full, a call is all or nothing for every table that contains its records. -/
theorem allOrNothing_of_full (full : Full t) (contained : Contained t.content) (mcfgHeader : MCFGHeader) :
    AllOrNothing t mcfgHeader := by
  have first := read_full full 0 0 (Nat.le_refl headerSize)
  rw [List.drop_zero] at first
  have size : (t.content.take headerSize).length = headerSize :=
    List.length_take_of_le (Nat.le_trans (Nat.le_add_right _ _) contained.records)
  have header : (headerReceived t mcfgHeader).bytes = t.content.take headerSize := by
    rw [headerReceived, first, Option.getD_some]
    exact overwrite_full (mcfgHeader.size.trans size.symm)
  have length : (headerReceived t mcfgHeader).length = lengthField t.content := by
    rw [MCFGHeader.length, header, lengthField_take]
  have count : (headerReceived t mcfgHeader).nrecords = recordCount t.content := by
    rw [nrecords_eq (by rw [length]; exact contained.header), length, recordCount]
  have received : recordsReceived t mcfgHeader =
      (List.range' 0 (recordCount t.content)).map (fun j => some (recordBytes t.content j)) := by
    rw [recordsReceived, count, first, Option.getD_some, size]
    exact deliveries_full full _ 1 0 (by rw [Nat.zero_add]; exact contained.records)
  have within : ∀ j < recordCount t.content, (recordBytes t.content j).length = recordSize := fun j below =>
    length_recordBytes (Nat.le_trans (Nat.add_le_add_left (Nat.mul_le_mul_left _ below) _) contained.records)
  refine (allOrNothing_iff t mcfgHeader).mpr (Or.inr (Or.inr ⟨contained, count, ?_, fun i read found => ?_⟩))
  · rw [received]
    intro member
    obtain ⟨j, inRange, same⟩ := List.mem_map.mp member
    have below : j < recordCount t.content := by simpa using inRange
    have empty := within j below
    rw [Option.some.inj same] at empty
    cases empty
  · rw [received, List.getElem?_map, Option.map_eq_some_iff] at found
    obtain ⟨j, at_i, rfl⟩ := found
    obtain ⟨below, rfl⟩ := List.getElem?_eq_some_iff.mp at_i
    rw [List.length_range'] at below
    rw [List.getElem_range', Nat.zero_add, Nat.one_mul, delivered_full (within i below)]

end Full

/-! ## An empty read -/

/-- A header of a table with two records, of the segments 0 and 1. -/
def twoRecords : Bytes :=
  ascii "MCFG" ++ [76, 0, 0, 0] ++ .replicate 36 0 ++ .replicate 16 0 ++ (.replicate 8 0 ++ [1] ++ .replicate 7 0)

def zeroHeader : MCFGHeader := ⟨.replicate headerSize 0, List.length_replicate⟩

/-- Each `read` is full, and the second record is not read. -/
def emptySecondRecord : TableFile := ⟨twoRecords, fun i => if i = 2 then some 0 else some headerSize⟩

/-- The call throws and leaves one record, with which every later call returns at once. -/
theorem not_allOrNothing_emptyRead :
    Contained twoRecords ∧ (readMCFG (some emptySecondRecord) ⟨zeroHeader, []⟩).1 = .error cannotRead2 ∧
      (readMCFG (some emptySecondRecord) ⟨zeroHeader, []⟩).2.mcfgRecords = [⟨0, 0, 0, 0, [0, 0, 0, 0]⟩] ∧
      ¬ AllOrNothing emptySecondRecord zeroHeader := by
  have thrown : (readMCFG (some emptySecondRecord) ⟨zeroHeader, []⟩).1 = .error cannotRead2 := by
    rfl
  have left : (readMCFG (some emptySecondRecord) ⟨zeroHeader, []⟩).2.mcfgRecords = [⟨0, 0, 0, 0, [0, 0, 0, 0]⟩] := by
    decide +kernel
  refine ⟨⟨by decide +kernel, by decide +kernel⟩, thrown, left, ?_⟩
  rintro (⟨e, -, none⟩ | ⟨ok, -⟩)
  · rw [left] at none
    cases none
  · rw [thrown] at ok
    cases ok

end Pcm.Pci
