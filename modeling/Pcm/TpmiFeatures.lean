import Pcm.Lib.Throwing
import Pcm.MmioCopy
import Pcm.PciCapabilities
import Pcm.TpmiDriver

/-!
# Addresses of TPMI features

`PFSInstances::get` (`tpmi.cpp:46-142`) reads for each TPMI device an array of records, each of which says where
the entries of a feature are, and collects the addresses of the entries. An array that cannot be read is used as
far as it was read.
-/

namespace Pcm.Tpmi

open StdString Mmio Throwing

/-- `struct PFS` -/
structure PFS where
  word : BitVec 64
  deriving DecidableEq, Repr

namespace PFS

def TPMI_ID (pfs : PFS) : Nat := (pfs.word.extractLsb' 0 8).toNat

def NumEntries (pfs : PFS) : Nat := (pfs.word.extractLsb' 8 8).toNat

def EntrySize (pfs : PFS) : Nat := (pfs.word.extractLsb' 16 16).toNat

def CapOffset (pfs : PFS) : Nat := (pfs.word.extractLsb' 32 16).toNat

/-- The number of values of `i_offset`. -/
def registers (pfs : PFS) : Nat := (pfs.EntrySize * 4 + 7) / 8

end PFS

/-- [TPMI ID][entry] -> base address -/
abbrev PFSMapType := Nat → List Nat

def PFSMapType.push (pfsMap : PFSMapType) (id address : Nat) : PFSMapType := fun i =>
  if i = id then pfsMap i ++ [address] else pfsMap i

structure PFSInstance where
  pfsMap : PFSMapType
  NUMANode : Int

/-- A TPMI device that `processDVSEC` finds, and the memory during each copy. -/
structure Feature where
  bar : BitVec 64
  vsec : Pci.VSEC
  NUMANode : Int
  arrayMemory : Memory
  /-- By the number of the record and that of the entry. -/
  entryMemory : Nat → Nat → Memory
  /-- Whether the copy is for printing, the numbers of the record and the entry, and the number of the register. -/
  registerMemory : Bool → Nat → Nat → Nat → Memory

namespace Feature

/-- `bar + 8ULL * vsec.fields.Address` -/
def start (f : Feature) : Nat := (f.bar.toNat + 8 * f.vsec.address) % 2 ^ 64

def entryAddress (f : Feature) (pfs : PFS) (p : Nat) : Nat :=
  (f.start + pfs.CapOffset * 1024 + p * pfs.EntrySize * 4) % 2 ^ 64

/-- The words of `pfsArray`, which are zero before the copy. What it throws is caught. -/
def arrayWords (f : Feature) : List Word :=
  (mmioMemcpy f.arrayMemory (.replicate (2 * f.vsec.numEntries) 0) f.start (f.vsec.numEntries * 8) true).1

/-- `pfsArray[k]` -/
def pfsArray (f : Feature) (k : Nat) : PFS := ⟨tableWord f.arrayWords k⟩

end Feature

/-- Copies of `n` registers of an entry, from the `i`-th one on. -/
def readRegisters (memory : Nat → Memory) (addr : Nat) : Nat → Nat → Except StdException Unit
  | 0, _ => .ok ()
  | n + 1, i =>
      match (mmioMemcpy (memory i) [0, 0] ((addr + 8 * i) % 2 ^ 64) 8 false).2 with
      | .error e => .error e
      | .ok () => readRegisters memory addr n (i + 1)

/-- The copies of the registers of a valid entry, which are made twice where `TPMIverbose` is set. -/
def readEntry (TPMIverbose : Bool) (f : Feature) (k : Nat) (pfs : PFS) (p : Nat) : Except StdException Unit := do
  if TPMIverbose then
    readRegisters (f.registerMemory true k p) (f.entryAddress pfs p) pfs.registers 0
  readRegisters (f.registerMemory false k p) (f.entryAddress pfs p) pfs.registers 0

/-- One entry of the `k`-th record (`tpmi.cpp:97-134`). -/
def processEntry (TPMIverbose : Bool) (f : Feature) (k : Nat) (pfs : PFS) (pfsMap : PFSMapType) (p : Nat) :
    Except StdException PFSMapType :=
  let addr := f.entryAddress pfs p
  let copied := mmioMemcpy (f.entryMemory k p) [0] addr 4 false
  match copied.2 with
  | .error _ => .ok (pfsMap.push pfs.TPMI_ID addr)
  | .ok () =>
      if (copied.1.getD 0 0).toNat = invalidValue then .ok pfsMap
      else match readEntry TPMIverbose f k pfs p with
        | .error e => .error e
        | .ok () => .ok (pfsMap.push pfs.TPMI_ID addr)

def processRecord (TPMIverbose : Bool) (f : Feature) (pfsMap : PFSMapType) (k : Nat) : Except StdException PFSMapType :=
  (List.range (f.pfsArray k).NumEntries).foldlM (processEntry TPMIverbose f k (f.pfsArray k)) pfsMap

/-- What is done for one device. -/
def processFeature (TPMIverbose : Bool) (instances : List PFSInstance) (f : Feature) :
    Except StdException (List PFSInstance) :=
  match (List.range f.vsec.numEntries).foldlM (processRecord TPMIverbose f) (fun _ => []) with
  | .error e => .error e
  | .ok pfsMap => .ok (instances ++ [⟨pfsMap, f.NUMANode⟩])

/-- `PFSInstances::get`, with the devices that are found when nothing was read before. -/
def get (TPMIverbose : Bool) (singleton : Option (List PFSInstance)) (features : List Feature) :
    Except StdException (List PFSInstance) :=
  match singleton with
  | some instances => .ok instances
  | none => features.foldlM (processFeature TPMIverbose) []

/-! ## Entries -/

namespace Feature

variable (f : Feature) (k : Nat) (pfs : PFS) (p : Nat)

/-- The word at the address of an entry can be mapped. -/
def Mapped : Prop := mapRange (f.entryMemory k p) (f.entryAddress pfs p) 4 = none

/-- The value of that word. -/
def reg0 : Nat := ((rangeWords (f.entryMemory k p) (f.entryAddress pfs p) 4).getD 0 0).toNat

/-- The entry is readable and valid. -/
def Valid : Prop := f.Mapped k pfs p ∧ f.reg0 k pfs p ≠ invalidValue

/-- The entry is not readable, or valid. -/
def Listed : Prop := f.Mapped k pfs p → f.reg0 k pfs p ≠ invalidValue

instance : Decidable (f.Mapped k pfs p) := inferInstanceAs (Decidable (_ = none))

instance : Decidable (f.Listed k pfs p) := inferInstanceAs (Decidable (_ → _))

theorem Valid.listed {f : Feature} {k : Nat} {pfs : PFS} {p : Nat} (valid : f.Valid k pfs p) : f.Listed k pfs p :=
  fun _ => valid.2

/-- The registers that are copied of an entry can be mapped. -/
def EntryMapped (TPMIverbose : Bool) : Prop :=
  ∀ print i, (print = true → TPMIverbose = true) → i < pfs.registers →
    mapRange (f.registerMemory print k p i) ((f.entryAddress pfs p + 8 * i) % 2 ^ 64) 8 = none

/-- The addresses that some records give for an id. -/
def addresses (records : Nat → PFS) (ks : List Nat) (id : Nat) : List Nat :=
  ks.flatMap (fun k => if (records k).TPMI_ID = id then
    ((List.range (records k).NumEntries).filter (fun p => f.Listed k (records k) p)).map (f.entryAddress (records k))
    else [])

end Feature

section Entries

variable {TPMIverbose : Bool} {f : Feature} {k p : Nat} {pfs : PFS} {m : Memory} {src n : Nat}

theorem mmioMemcpy_unchecked_ok_iff (dest : List Word) :
    (mmioMemcpy m dest src n false).2 = .ok () ↔ mapRange m src n = none := by
  cases mapped : mapRange m src n with
  | some what =>
      rw [mmioMemcpy_unmapped mapped]
      exact iff_of_false (fun same => by cases same) (fun same => by cases same)
  | none =>
      rw [mmioMemcpy_mapped mapped, copyWords_unchecked]
      exact iff_of_true rfl rfl

theorem mmioMemcpy_word (mapped : mapRange m src n = none) :
    (mmioMemcpy m [0] src n false).1.getD 0 0 = (rangeWords m src n).getD 0 0 := by
  rw [mmioMemcpy_mapped mapped, copyWords_unchecked]
  change (rangeWords m src n ++ List.drop (rangeWords m src n).length [0]).getD 0 0 = _
  cases rangeWords m src n with
  | nil => rfl
  | cons word words => rfl

theorem readRegisters_ok_iff (memory : Nat → Memory) (addr n i : Nat) : readRegisters memory addr n i = .ok () ↔
    ∀ j, i ≤ j → j < i + n → mapRange (memory j) ((addr + 8 * j) % 2 ^ 64) 8 = none := by
  induction n generalizing i with
  | zero => exact iff_of_true rfl (fun j low high => absurd high (by omega))
  | succ n ih =>
      rw [readRegisters]
      by_cases first : mapRange (memory i) ((addr + 8 * i) % 2 ^ 64) 8 = none
      · rw [(mmioMemcpy_unchecked_ok_iff [0, 0]).mpr first, ih (i + 1)]
        constructor
        · intro later j low high
          rcases Nat.eq_or_lt_of_le low with rfl | above
          · exact first
          · exact later j above (by omega)
        · exact fun all j low high => all j (by omega) (by omega)
      · obtain ⟨e, thrown⟩ := exists_error (fun ok => first ((mmioMemcpy_unchecked_ok_iff [0, 0]).mp ok))
        rw [thrown]
        exact iff_of_false (fun same => by cases same) (fun all => first (all i (Nat.le_refl i) (by omega)))

theorem readEntry_ok_iff : readEntry TPMIverbose f k pfs p = .ok () ↔ f.EntryMapped k pfs p TPMIverbose := by
  have printed : ∀ print, readRegisters (f.registerMemory print k p) (f.entryAddress pfs p) pfs.registers 0 = .ok () ↔
      ∀ i < pfs.registers, mapRange (f.registerMemory print k p i) ((f.entryAddress pfs p + 8 * i) % 2 ^ 64) 8 = none := by
    intro print
    rw [readRegisters_ok_iff, Nat.zero_add]
    exact ⟨fun all i below => all i (Nat.zero_le i) below, fun all i _ below => all i below⟩
  cases TPMIverbose with
  | false =>
      change readRegisters (f.registerMemory false k p) (f.entryAddress pfs p) pfs.registers 0 = .ok () ↔ _
      rw [printed]
      constructor
      · intro all print i verbose below
        cases print with
        | false => exact all i below
        | true => exact absurd (verbose rfl) Bool.false_ne_true
      · exact fun all i below => all false i (fun same => same) below
  | true =>
      change (readRegisters (f.registerMemory true k p) (f.entryAddress pfs p) pfs.registers 0).bind _ = .ok () ↔ _
      have both : f.EntryMapped k pfs p true ↔
          (∀ i < pfs.registers, mapRange (f.registerMemory true k p i) ((f.entryAddress pfs p + 8 * i) % 2 ^ 64) 8 = none) ∧
          ∀ i < pfs.registers, mapRange (f.registerMemory false k p i) ((f.entryAddress pfs p + 8 * i) % 2 ^ 64) 8 = none := by
        constructor
        · exact fun all => ⟨fun i below => all true i (fun _ => rfl) below, fun i below => all false i (fun _ => rfl) below⟩
        · rintro ⟨first, second⟩ print i - below
          cases print with
          | false => exact second i below
          | true => exact first i below
      rw [both, ← printed true, ← printed false]
      cases first : readRegisters (f.registerMemory true k p) (f.entryAddress pfs p) pfs.registers 0 with
      | error e => exact iff_of_false (fun same => by cases same) (fun both => by cases both.1)
      | ok u => exact (and_iff_right rfl).symm

/-- The map after an entry. -/
def nextEntry (f : Feature) (k : Nat) (pfs : PFS) (pfsMap : PFSMapType) (p : Nat) : PFSMapType :=
  if f.Listed k pfs p then pfsMap.push pfs.TPMI_ID (f.entryAddress pfs p) else pfsMap

theorem steps_processEntry (TPMIverbose : Bool) (f : Feature) (k : Nat) (pfs : PFS) :
    Steps (fun p => f.Valid k pfs p → f.EntryMapped k pfs p TPMIverbose) (nextEntry f k pfs)
      (processEntry TPMIverbose f k pfs) := by
  have unmapped : ∀ pfsMap p, ¬ f.Mapped k pfs p →
      processEntry TPMIverbose f k pfs pfsMap p = .ok (pfsMap.push pfs.TPMI_ID (f.entryAddress pfs p)) := by
    intro pfsMap p not
    obtain ⟨e, thrown⟩ := exists_error (fun ok => not ((mmioMemcpy_unchecked_ok_iff [0]).mp ok))
    rw [processEntry]
    simp only [thrown]
  have mapped : ∀ pfsMap p, f.Mapped k pfs p → processEntry TPMIverbose f k pfs pfsMap p =
      if f.reg0 k pfs p = invalidValue then .ok pfsMap
      else match readEntry TPMIverbose f k pfs p with
        | .error e => .error e
        | .ok () => .ok (pfsMap.push pfs.TPMI_ID (f.entryAddress pfs p)) := by
    intro pfsMap p is
    rw [processEntry]
    simp only [(mmioMemcpy_unchecked_ok_iff [0]).mpr is, mmioMemcpy_word is]
    rfl
  constructor
  · intro pfsMap p good
    rw [nextEntry]
    by_cases is : f.Mapped k pfs p
    · rw [mapped pfsMap p is]
      by_cases invalid : f.reg0 k pfs p = invalidValue
      · rw [if_pos invalid, if_neg (fun listed : f.Listed k pfs p => listed is invalid)]
      · have listed : f.Listed k pfs p := fun _ => invalid
        rw [if_neg invalid, if_pos listed, readEntry_ok_iff.mpr (good ⟨is, invalid⟩)]
    · have listed : f.Listed k pfs p := fun there => absurd there is
      rw [unmapped pfsMap p is, if_pos listed]
  · intro pfsMap p bad
    obtain ⟨⟨is, valid⟩, unread⟩ := Classical.not_imp.mp bad
    obtain ⟨e, thrown⟩ := exists_error (fun ok => unread (readEntry_ok_iff.mp ok))
    refine ⟨e, ?_⟩
    rw [mapped pfsMap p is, if_neg valid, thrown]

end Entries

/-! ## Records and devices -/

namespace Feature

variable (f : Feature)

/-- All registers that are copied can be mapped. -/
def RegistersMapped (TPMIverbose : Bool) : Prop :=
  ∀ k ∈ List.range f.vsec.numEntries, ∀ p ∈ List.range (f.pfsArray k).NumEntries,
    f.Valid k (f.pfsArray k) p → f.EntryMapped k (f.pfsArray k) p TPMIverbose

/-- The map that is made for a device. -/
def recordedMap : PFSMapType := f.addresses f.pfsArray (List.range f.vsec.numEntries)

/-- The words of the array that are read. -/
def wordsRead : List Word :=
  if mapRange f.arrayMemory f.start (f.vsec.numEntries * 8) = none then
    (rangeWords f.arrayMemory f.start (f.vsec.numEntries * 8)).takeWhile (fun word => word ≠ badValue)
  else []

/-- The number of records both of whose words are read. -/
def complete : Nat := f.wordsRead.length / 2

/-- A record, as its two words are in memory. -/
def record (k : Nat) : PFS :=
  ⟨f.arrayMemory.read32 (f.start + 4 * (2 * k + 1)) ++ f.arrayMemory.read32 (f.start + 4 * (2 * k))⟩

/-- The map of the records that are read: every address in it is that of an entry of such a record, and those of
the readable and valid entries are in it in their order. -/
def expectedMap : PFSMapType := f.addresses f.record (List.range f.complete)

/-- No entry of a record that is read is readable and valid. -/
def NothingValid : Prop := ∀ k < f.complete, ∀ p < (f.record k).NumEntries, ¬ f.Valid k (f.record k) p

/-- The first record that is not read completely adds no address. -/
def PartAddsNothing : Prop :=
  ∀ p < (f.pfsArray f.complete).NumEntries, ¬ f.Listed f.complete (f.pfsArray f.complete) p

end Feature

section Records

variable {TPMIverbose : Bool} {f : Feature} {k : Nat}

theorem steps_processRecord (TPMIverbose : Bool) (f : Feature) :
    Steps (fun k => ∀ p ∈ List.range (f.pfsArray k).NumEntries, f.Valid k (f.pfsArray k) p →
        f.EntryMapped k (f.pfsArray k) p TPMIverbose)
      (fun pfsMap k => (List.range (f.pfsArray k).NumEntries).foldl (nextEntry f k (f.pfsArray k)) pfsMap)
      (processRecord TPMIverbose f) where
  ok pfsMap k := (steps_processEntry TPMIverbose f k (f.pfsArray k)).foldlM.ok pfsMap _
  error pfsMap k := (steps_processEntry TPMIverbose f k (f.pfsArray k)).foldlM.error pfsMap _

theorem foldl_nextEntry (pfs : PFS) (ps : List Nat) (pfsMap : PFSMapType) (id : Nat) :
    ps.foldl (nextEntry f k pfs) pfsMap id = pfsMap id ++
      if pfs.TPMI_ID = id then (ps.filter (fun p => f.Listed k pfs p)).map (f.entryAddress pfs) else [] := by
  induction ps generalizing pfsMap with
  | nil => simp
  | cons p ps ih =>
      rw [List.foldl_cons, ih, nextEntry]
      by_cases listed : f.Listed k pfs p
      · by_cases same : pfs.TPMI_ID = id
        · simp [listed, same, PFSMapType.push]
        · simp [listed, same, Ne.symm same, PFSMapType.push]
      · simp [listed]

theorem foldl_records (records : Nat → PFS) (ks : List Nat) (pfsMap : PFSMapType) (id : Nat) :
    ks.foldl (fun pfsMap k => (List.range (records k).NumEntries).foldl (nextEntry f k (records k)) pfsMap) pfsMap id =
      pfsMap id ++ f.addresses records ks id := by
  induction ks generalizing pfsMap with
  | nil => exact (List.append_nil _).symm
  | cons k ks ih =>
      rw [List.foldl_cons, ih, foldl_nextEntry, Feature.addresses, Feature.addresses, List.flatMap_cons,
        List.append_assoc]

theorem steps_processFeature (TPMIverbose : Bool) :
    Steps (fun f : Feature => f.RegistersMapped TPMIverbose)
      (fun instances f => instances ++ [⟨f.recordedMap, f.NUMANode⟩]) (processFeature TPMIverbose) where
  ok := by
    intro instances f good
    have records := (steps_processRecord TPMIverbose f).foldlM.ok (fun _ => []) (List.range f.vsec.numEntries) good
    have made : (List.range f.vsec.numEntries).foldl
        (fun pfsMap k => (List.range (f.pfsArray k).NumEntries).foldl (nextEntry f k (f.pfsArray k)) pfsMap)
        (fun _ => []) = f.recordedMap := funext (fun id => foldl_records f.pfsArray _ _ id)
    rw [processFeature, records, made]
  error := by
    intro instances f bad
    obtain ⟨e, thrown⟩ :=
      (steps_processRecord TPMIverbose f).foldlM.error (fun _ => []) (List.range f.vsec.numEntries) bad
    exact ⟨e, by rw [processFeature, thrown]⟩

theorem foldl_instances_append {α β : Type} (g : α → β) (l : List α) (s : List β) :
    l.foldl (fun s a => s ++ [g a]) s = s ++ l.map g := by
  induction l generalizing s with
  | nil => exact (List.append_nil s).symm
  | cons a l ih => rw [List.foldl_cons, ih, List.append_assoc, List.map_cons, List.singleton_append]

theorem get_ok_iff {features : List Feature} {instances : List PFSInstance} :
    get TPMIverbose none features = .ok instances ↔ (∀ f ∈ features, f.RegistersMapped TPMIverbose) ∧
      features.map (fun f => ⟨f.recordedMap, f.NUMANode⟩) = instances := by
  change features.foldlM (processFeature TPMIverbose) [] = .ok instances ↔ _
  rw [(steps_processFeature TPMIverbose).foldlM.ok_iff, foldl_instances_append, List.nil_append]

end Records

/-! ## Complete records -/

section Complete

variable {f : Feature}

theorem getElem?_wordsFrom (read32 : Nat → Word) (n i j : Nat) :
    (wordsFrom read32 n i)[j]? = if j < n then some (read32 (i + 4 * j)) else none := by
  induction n generalizing i j with
  | zero => rfl
  | succ n ih =>
      cases j with
      | zero => rfl
      | succ j =>
          rw [wordsFrom, List.getElem?_cons_succ, ih]
          have address : i + 4 + 4 * j = i + 4 * (j + 1) := by omega
          simp only [Nat.succ_lt_succ_iff, address]

/-- What was read comes before zeros. -/
theorem arrayWords_eq (f : Feature) : f.arrayWords =
    f.wordsRead ++ List.drop f.wordsRead.length (.replicate (2 * f.vsec.numEntries) 0) := by
  rw [Feature.arrayWords, Feature.wordsRead]
  cases mapped : mapRange f.arrayMemory f.start (f.vsec.numEntries * 8) with
  | some what =>
      rw [mmioMemcpy_unmapped mapped, if_neg (fun same => by cases same)]
      rfl
  | none =>
      rw [mmioMemcpy_mapped mapped, if_pos rfl, copyWords_stored]
      rfl

theorem length_wordsRead (f : Feature) : f.wordsRead.length ≤ 2 * f.vsec.numEntries := by
  rw [Feature.wordsRead]
  split
  · refine Nat.le_trans (List.takeWhile_prefix _).length_le ?_
    rw [rangeWords, length_wordsFrom, wordCount, rangeEnd]
    have wrapped := Nat.mod_le (f.start + f.vsec.numEntries * 8) (2 ^ 64)
    omega
  · exact Nat.zero_le _

theorem arrayWords_read {j : Nat} (below : j < f.wordsRead.length) :
    f.arrayWords.getD j 0 = f.arrayMemory.read32 (f.start + 4 * j) := by
  rw [arrayWords_eq, List.getD_eq_getElem?_getD, List.getElem?_append_left below]
  rw [Feature.wordsRead] at below ⊢
  split at below
  · rename_i mapped
    have within := List.prefix_iff_getElem?.mp
      (List.takeWhile_prefix (l := rangeWords f.arrayMemory f.start (f.vsec.numEntries * 8))
        (fun word => decide (word ≠ badValue))) j below
    have lookup : (rangeWords f.arrayMemory f.start (f.vsec.numEntries * 8))[j]? = _ := getElem?_wordsFrom _ _ _ j
    rw [if_pos mapped, List.getElem?_eq_getElem below]
    rw [lookup] at within
    split at within
    · exact (Option.some.inj within).symm
    · cases within
  · exact absurd below (Nat.not_lt_zero j)

theorem arrayWords_zero {j : Nat} (beyond : f.wordsRead.length ≤ j) : f.arrayWords.getD j 0 = 0 := by
  rw [arrayWords_eq, List.getD_eq_getElem?_getD, List.getElem?_append_right beyond, List.drop_replicate,
    List.getElem?_replicate]
  split
  · rfl
  · rfl

theorem pfsArray_complete {k : Nat} (below : k < f.complete) : f.pfsArray k = f.record k := by
  rw [Feature.complete] at below
  rw [Feature.pfsArray, Feature.record, tableWord, arrayWords_read (by omega), arrayWords_read (by omega)]

theorem numEntries_after {k : Nat} (beyond : f.wordsRead.length ≤ 2 * k) : (f.pfsArray k).NumEntries = 0 := by
  rw [Feature.pfsArray, tableWord, arrayWords_zero beyond, arrayWords_zero (by omega)]
  rfl

theorem complete_le (f : Feature) : f.complete ≤ f.vsec.numEntries := by
  have := length_wordsRead f
  rw [Feature.complete]
  omega

theorem addresses_append (records : Nat → PFS) (front back : List Nat) (id : Nat) :
    f.addresses records (front ++ back) id = f.addresses records front id ++ f.addresses records back id :=
  List.flatMap_append

theorem addresses_empty {records : Nat → PFS} {ks : List Nat} (empty : ∀ k ∈ ks, (records k).NumEntries = 0)
    (id : Nat) : f.addresses records ks id = [] := by
  refine List.flatMap_eq_nil_iff.mpr (fun k member => ?_)
  rw [empty k member]
  exact ite_self []

theorem addresses_congr {records records' : Nat → PFS} {ks : List Nat} (same : ∀ k ∈ ks, records k = records' k)
    (id : Nat) : f.addresses records ks id = f.addresses records' ks id := by
  induction ks with
  | nil => rfl
  | cons k ks ih =>
      obtain ⟨first, later⟩ := List.forall_mem_cons.mp same
      rw [← List.singleton_append, addresses_append, addresses_append, ih later]
      simp only [Feature.addresses, List.flatMap_cons, List.flatMap_nil, first]

/-- After the complete records there is at most one that adds something. -/
theorem recordedMap_eq (f : Feature) (id : Nat) :
    f.recordedMap id = f.expectedMap id ++ f.addresses f.pfsArray [f.complete] id := by
  have records : f.addresses f.pfsArray (List.range f.complete) id = f.expectedMap id :=
    addresses_congr (fun k member => pfsArray_complete (List.mem_range.mp member)) id
  have half : f.wordsRead.length ≤ 2 * f.complete + 1 := by
    rw [Feature.complete]
    omega
  rw [Feature.recordedMap]
  rcases Nat.lt_or_eq_of_le (complete_le f) with part | all
  · obtain ⟨others, length⟩ : ∃ others, f.vsec.numEntries = f.complete + 1 + others :=
      ⟨f.vsec.numEntries - (f.complete + 1), by omega⟩
    have zeros : ∀ k ∈ (List.range others).map (f.complete + 1 + ·), (f.pfsArray k).NumEntries = 0 := by
      intro k member
      obtain ⟨j, -, rfl⟩ := List.mem_map.mp member
      exact numEntries_after (by omega)
    rw [length, List.range_add, List.range_succ, addresses_append, addresses_append, records,
      addresses_empty zeros, List.append_nil]
  · have none : ∀ k ∈ [f.complete], (f.pfsArray k).NumEntries = 0 := by
      intro k member
      rw [List.mem_singleton.mp member, all]
      exact numEntries_after (length_wordsRead f)
    rw [addresses_empty none, List.append_nil, ← all, records]

theorem addresses_part_iff (f : Feature) :
    (∀ id, f.addresses f.pfsArray [f.complete] id = []) ↔ f.PartAddsNothing := by
  constructor
  · intro empty p below listed
    have own := List.flatMap_eq_nil_iff.mp (empty (f.pfsArray f.complete).TPMI_ID) f.complete List.mem_cons_self
    rw [if_pos rfl, List.map_eq_nil_iff, List.filter_eq_nil_iff] at own
    exact own p (List.mem_range.mpr below) (decide_eq_true listed)
  · intro nothing id
    refine List.flatMap_eq_nil_iff.mpr (fun k member => ?_)
    rw [List.mem_singleton.mp member]
    split
    · rw [List.map_eq_nil_iff, List.filter_eq_nil_iff]
      intro p within listed
      exact nothing p (List.mem_range.mp within) (of_decide_eq_true listed)
    · rfl

theorem recordedMap_eq_iff (f : Feature) : f.recordedMap = f.expectedMap ↔ f.PartAddsNothing := by
  rw [← addresses_part_iff, funext_iff]
  refine forall_congr' (fun id => ?_)
  rw [recordedMap_eq]
  exact List.append_right_eq_self

end Complete

/-! ## All devices -/

section Devices

variable {TPMIverbose : Bool} {features : List Feature}

/-- What is recorded for each device are the addresses of the complete records, with all readable and valid
entries; where an exception leaves nothing, there is no such entry. -/
structure Recorded (TPMIverbose : Bool) (features : List Feature) : Prop where
  returned : ∀ instances, get TPMIverbose none features = .ok instances →
    instances.map PFSInstance.pfsMap = features.map Feature.expectedMap
  thrown : ∀ e, get TPMIverbose none features = .error e → ∀ f ∈ features, f.NothingValid

theorem recorded_of_mapped (mapped : ∀ f ∈ features, f.RegistersMapped TPMIverbose) :
    Recorded TPMIverbose features ↔ ∀ f ∈ features, f.PartAddsNothing := by
  have result := get_ok_iff.mpr ⟨mapped, rfl⟩
  have maps : (features.map (fun f => (⟨f.recordedMap, f.NUMANode⟩ : PFSInstance))).map PFSInstance.pfsMap =
      features.map Feature.recordedMap := by
    rw [List.map_map]
    rfl
  have same : features.map Feature.recordedMap = features.map Feature.expectedMap ↔
      ∀ f ∈ features, f.PartAddsNothing := by
    rw [List.map_inj_left]
    exact forall₂_congr (fun f _ => recordedMap_eq_iff f)
  constructor
  · intro recorded
    rw [← same, ← maps]
    exact recorded.returned _ result
  · intro nothing
    constructor
    · intro instances returned
      rw [result] at returned
      cases returned
      rw [maps, same]
      exact nothing
    · intro e thrown
      rw [result] at thrown
      cases thrown

theorem recorded_of_unmapped (unmapped : ¬ ∀ f ∈ features, f.RegistersMapped TPMIverbose) :
    Recorded TPMIverbose features ↔ ∀ f ∈ features, f.NothingValid := by
  obtain ⟨e, thrown⟩ : ∃ e, get TPMIverbose none features = .error e :=
    (steps_processFeature TPMIverbose).foldlM.error [] features unmapped
  constructor
  · exact fun recorded => recorded.thrown e thrown
  · intro nothing
    refine ⟨fun instances returned => ?_, fun _ _ => nothing⟩
    rw [thrown] at returned
    cases returned

/-- The maps hold the addresses of the complete records exactly when all registers can be mapped and a record
that is read by half adds nothing, or when some register cannot be mapped and there was nothing to record. -/
theorem recordedAddresses_iff (TPMIverbose : Bool) (features : List Feature) : Recorded TPMIverbose features ↔
    ((∀ f ∈ features, f.RegistersMapped TPMIverbose) ∧ ∀ f ∈ features, f.PartAddsNothing) ∨
      (¬ (∀ f ∈ features, f.RegistersMapped TPMIverbose) ∧ ∀ f ∈ features, f.NothingValid) := by
  by_cases mapped : ∀ f ∈ features, f.RegistersMapped TPMIverbose
  · rw [recorded_of_mapped mapped]
    exact ⟨fun nothing => Or.inl ⟨mapped, nothing⟩, fun either => either.elim And.right (fun h => absurd mapped h.1)⟩
  · rw [recorded_of_unmapped mapped]
    exact ⟨fun nothing => Or.inr ⟨mapped, nothing⟩, fun either => either.elim (fun h => absurd h.1 mapped) And.right⟩

end Devices

/-! ## Half a record -/

/-- A device with one record, whose second word is a bad read. -/
def halfRecord : Feature where
  bar := 0x10000
  vsec := ⟨0xb, 0x42, 0x02010000, 0⟩
  NUMANode := 0
  arrayMemory := { mapping := fun _ _ => none, read32 := fun address => if address = 0x10000 then 0x10101 else badValue }
  entryMemory _ _ := { mapping := fun _ _ => none, read32 := fun _ => 0 }
  registerMemory _ _ _ _ := { mapping := fun _ _ => none, read32 := fun _ => 0 }

/-- The record is used with an offset of zero, which was not read. -/
theorem not_recorded_halfRecord : halfRecord.expectedMap 1 = [] ∧ halfRecord.recordedMap 1 = [0x10000] ∧
    get false none [halfRecord] = .ok [⟨halfRecord.recordedMap, 0⟩] ∧ ¬ Recorded false [halfRecord] := by
  have mapped : ∀ f ∈ [halfRecord], f.RegistersMapped false := by
    intro f member k _ p _ _ print i _ _
    rw [List.mem_singleton.mp member]
    rfl
  have expected : halfRecord.expectedMap 1 = [] := by decide +kernel
  have recorded : halfRecord.recordedMap 1 = [0x10000] := by decide +kernel
  refine ⟨expected, recorded, get_ok_iff.mpr ⟨mapped, rfl⟩, fun all => ?_⟩
  have nothing := (recorded_of_mapped mapped).mp all halfRecord List.mem_cons_self
  rw [← recordedMap_eq_iff] at nothing
  rw [nothing, expected] at recorded
  cases recorded

end Pcm.Tpmi
