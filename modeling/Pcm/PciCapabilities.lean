import Mathlib.Data.Fintype.EquivFin
import Mathlib.Order.Interval.Set.Nat
import Pcm.Lib.PointerWalk
import Pcm.Lib.StdString

/-!
# Capabilities of PCI devices

The capabilities of a device form lists in its configuration space: the extended ones, which
`processDVSEC` (`pci.h:233-316`) searches for tables of registers, and those of the first 256 bytes, which
`probe_capability_pci_express` (`lspci.cpp:34-61`) searches for the state of the link. The pointers come from
the device.
-/

namespace Pcm.Pci

open StdString PointerWalk

/-- The content of a configuration space: the word that is read at an offset. -/
abbrev ConfigSpace := Nat → BitVec 32

/-- What `read32` of a handle gives at an offset, none where it does not read four bytes. -/
abbrev Reads := Nat → Option (BitVec 32)

def hasCapabilityList (status : BitVec 32) : Bool := status &&& 0x100000 ≠ 0

/-! ## Extended capabilities -/

/-- `union VSEC`, as its four words. -/
structure VSEC where
  word0 : BitVec 32
  word1 : BitVec 32
  word2 : BitVec 32
  word3 : BitVec 32
  deriving DecidableEq, Repr

namespace VSEC

def capId (h : VSEC) : BitVec 16 := h.word0.extractLsb' 0 16

def capNext (h : VSEC) : BitVec 12 := h.word0.extractLsb' 20 12

def numEntries (h : VSEC) : Nat := (h.word2.extractLsb' 16 8).toNat

def tBIR (h : VSEC) : Nat := (h.word3.extractLsb' 0 3).toNat

def address (h : VSEC) : Nat := (h.word3.extractLsb' 3 29).toNat

end VSEC

/-- Two times `read64`. -/
def readHeader (reads : Reads) (offset : Nat) : Option VSEC := do
  let word0 ← reads offset
  let word1 ← reads (offset + 4)
  let word2 ← reads (offset + 8)
  let word3 ← reads (offset + 12)
  return ⟨word0, word1, word2, word3⟩

/-- The address that is passed to `processFunc` (`pci.h:268-299`), if there is one. -/
def barAddress (reads : Reads) (tBIR : Nat) : Option (BitVec 64) :=
  let barOffset := 0x10 + tBIR * 4
  match reads barOffset with
  | none => none
  | some bar =>
      if bar = 0 then none
      else if bar.extractLsb' 0 1 ≠ 0 then none
      else if bar.extractLsb' 1 2 = 0 then some ((bar &&& ~~~0xf).setWidth 64)
      else if bar.extractLsb' 1 2 = 2 then (reads (barOffset + 4)).map (fun high => (high ++ bar) &&& ~~~0xf)
      else none

/-- The offset of the loop, and the calls of `processFunc`. -/
structure DvsecState where
  offset : Nat
  calls : List (BitVec 64 × VSEC) := []

/-- `header.fields.cap_next & ~3` -/
def VSEC.nextOffset (h : VSEC) : Nat := (h.capNext &&& ~~~3).toNat

/-- The calls after one more capability. -/
def dvsecCalls (reads : Reads) (matchFunc : VSEC → Bool) (calls : List (BitVec 64 × VSEC)) (header : VSEC) :
    List (BitVec 64 × VSEC) :=
  if matchFunc header then calls ++ (barAddress reads header.tBIR).toList.map (·, header) else calls

/-- One iteration (`pci.h:252-311`). -/
def dvsecStep (reads : Reads) (matchFunc : VSEC → Bool) (s : DvsecState) :
    Except StdException (Next DvsecState (List (BitVec 64 × VSEC))) :=
  if s.offset = 0 ∨ reads s.offset = none ∨ reads s.offset = some 0 then .ok (.done s.calls)
  else match readHeader reads s.offset with
    | none => .ok (.done s.calls)
    | some header =>
        let calls := dvsecCalls reads matchFunc s.calls header
        if s.offset = header.nextOffset then .ok (.done calls)
        else .ok (.again ⟨header.nextOffset, calls⟩)

/-- What `processDVSEC` does for one device. -/
def processDevice (reads : Reads) (matchFunc : VSEC → Bool) : Bounded StdException (List (BitVec 64 × VSEC)) :=
  if hasCapabilityList ((reads 4).getD 0) then .loop (dvsecStep reads matchFunc) ⟨0x100, []⟩ else pure []

/-- The extended capability after the one at an offset, none where the loop ends. -/
def dvsecNext (reads : Reads) (offset : Nat) : Option Nat :=
  if offset = 0 ∨ reads offset = none ∨ reads offset = some 0 then none
  else match readHeader reads offset with
    | none => none
    | some header => if offset = header.nextOffset then none else some header.nextOffset

/-! ## Capabilities of the first 256 bytes -/

def capId (word : BitVec 32) : BitVec 8 := word.extractLsb' 0 8

def capNext (word : BitVec 32) : BitVec 8 := word.extractLsb' 8 8

/-- `probe_capability_pci_express` with a handle, or what its constructor throws. The recursive call is the
next iteration; the result is what is assigned to `link_info`. -/
def capabilityStep (handle : Except StdException ConfigSpace) (capPtr : BitVec 32) :
    Except StdException (Next (BitVec 32) (Option (BitVec 32))) :=
  match handle with
  | .error e => .error e
  | .ok h =>
      let cap := h capPtr.toNat
      if capId cap ≠ 0x10 ∧ capNext cap ≠ 0 then .ok (.again ((capNext cap).setWidth 32))
      else if capId cap = 0x10 then .ok (.done (some (h (capPtr + 0x10).toNat)))
      else .ok (.done none)

def probeCapability (handle : Except StdException ConfigSpace) (capPtr : BitVec 32) :
    Bounded StdException (Option (BitVec 32)) :=
  .loop (capabilityStep handle) capPtr

/-- The capability after the one at a pointer, none where the recursion ends. -/
def capabilityNext (space : ConfigSpace) (capPtr : BitVec 32) : Option (BitVec 32) :=
  if capId (space capPtr.toNat) ≠ 0x10 ∧ capNext (space capPtr.toNat) ≠ 0 then
    some ((capNext (space capPtr.toNat)).setWidth 32)
  else none

/-! ## Termination -/

section Termination

variable {reads : Reads} {matchFunc : VSEC → Bool} {space : ConfigSpace}

theorem walks_dvsecStep (reads : Reads) (matchFunc : VSEC → Bool) :
    Walks (dvsecNext reads) DvsecState.offset (dvsecStep reads matchFunc) := by
  intro s
  by_cases stop : s.offset = 0 ∨ reads s.offset = none ∨ reads s.offset = some 0
  · rw [dvsecNext, if_pos stop]
    intro t again
    rw [dvsecStep, if_pos stop] at again
    cases again
  · cases read : readHeader reads s.offset with
    | none =>
        rw [dvsecNext, if_neg stop, read]
        intro t again
        rw [dvsecStep, if_neg stop, read] at again
        cases again
    | some header =>
        by_cases same : s.offset = header.nextOffset
        · rw [dvsecNext, if_neg stop, read]
          simp only [if_pos same]
          intro t again
          rw [dvsecStep, if_neg stop, read] at again
          simp only [if_pos same] at again
          cases again
        · rw [dvsecNext, if_neg stop, read]
          simp only [if_neg same]
          refine ⟨⟨header.nextOffset, dvsecCalls reads matchFunc s.calls header⟩, ?_, rfl⟩
          rw [dvsecStep, if_neg stop, read]
          simp only [if_neg same]

theorem walks_capabilityStep (space : ConfigSpace) :
    Walks (capabilityNext space) id (capabilityStep (.ok space)) := by
  intro capPtr
  by_cases again : capId (space capPtr.toNat) ≠ 0x10 ∧ capNext (space capPtr.toNat) ≠ 0
  · rw [id, capabilityNext, if_pos again]
    exact ⟨_, if_pos again, rfl⟩
  · rw [id, capabilityNext, if_neg again]
    intro t continues
    rw [capabilityStep, if_neg again] at continues
    split at continues
    · cases continues
    · cases continues

theorem finite_dvsecNext (reads : Reads) : { b | ∃ a, dvsecNext reads a = some b }.Finite := by
  refine (Set.finite_lt_nat (2 ^ 12)).subset ?_
  rintro b ⟨a, link⟩
  rw [dvsecNext] at link
  split at link
  · cases link
  split at link
  · cases link
  split at link
  · cases link
  · cases link
    exact BitVec.isLt _

theorem finite_capabilityNext (space : ConfigSpace) : { b | ∃ a, capabilityNext space a = some b }.Finite :=
  have : Finite (BitVec 32) := Finite.of_injective BitVec.toFin (fun _ _ => BitVec.eq_of_toFin_eq)
  Set.toFinite _

theorem ends_processDevice_iff (reads : Reads) (matchFunc : VSEC → Bool) :
    (processDevice reads matchFunc).Ends ↔
      (hasCapabilityList ((reads 4).getD 0) = true → Acyclic (dvsecNext reads) 0x100) := by
  rw [processDevice]
  split
  · rename_i listed
    rw [(walks_dvsecStep reads matchFunc).ends_iff, stops_iff_acyclic (finite_dvsecNext reads)]
    exact ⟨fun acyclic _ => acyclic, fun acyclic => acyclic listed⟩
  · rename_i unlisted
    exact iff_of_true ⟨.ok [], 0, rfl⟩ (fun listed => absurd listed unlisted)

theorem ends_probeCapability_iff (space : ConfigSpace) (capPtr : BitVec 32) :
    (probeCapability (.ok space) capPtr).Ends ↔ Acyclic (capabilityNext space) capPtr := by
  rw [probeCapability, (walks_capabilityStep space).ends_iff, stops_iff_acyclic (finite_capabilityNext space)]
  rfl

/-- Both searches end exactly when neither comes to a capability from which it returns to that one. -/
theorem searches_end_iff (matchFunc : VSEC → Bool) (space : ConfigSpace) (capPtr : BitVec 32) :
    ((processDevice (fun offset => some (space offset)) matchFunc).Ends ∧ (probeCapability (.ok space) capPtr).Ends) ↔
      (hasCapabilityList (space 4) = true → Acyclic (dvsecNext (fun offset => some (space offset))) 0x100) ∧
        Acyclic (capabilityNext space) capPtr := by
  rw [ends_processDevice_iff, ends_probeCapability_iff]
  rfl

/-- Two extended capabilities that point to each other. -/
def cyclicSpace : ConfigSpace := fun offset =>
  if offset = 4 then 0x100000 else if offset = 0x104 then 0x10000023 else 0x10400023

/-- Neither search ends: there for the two capabilities, here for a device that answers with ones only. -/
theorem searches_endless :
    (∀ matchFunc, ¬ (processDevice (fun offset => some (cyclicSpace offset)) matchFunc).Ends) ∧
      ¬ (probeCapability (.ok (fun _ => BitVec.allOnes 32)) (BitVec.allOnes 32)).Ends := by
  constructor
  · intro matchFunc
    rw [ends_processDevice_iff]
    intro acyclic
    have there : PointerWalk.Link (dvsecNext (fun offset => some (cyclicSpace offset))) 0x100 0x104 := rfl
    have back : PointerWalk.Link (dvsecNext (fun offset => some (cyclicSpace offset))) 0x104 0x100 := rfl
    exact acyclic (by decide) 0x100 .refl (.tail (.single there) back)
  · rw [ends_probeCapability_iff]
    intro acyclic
    have first : PointerWalk.Link (capabilityNext (fun _ => BitVec.allOnes 32)) (BitVec.allOnes 32) 0xff := rfl
    have again : PointerWalk.Link (capabilityNext (fun _ => BitVec.allOnes 32)) 0xff 0xff := rfl
    exact acyclic 0xff (.single first) (.single again)

end Termination

end Pcm.Pci
