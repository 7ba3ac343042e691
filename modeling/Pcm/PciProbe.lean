import Pcm.PciCapabilities

/-!
# Probing a PCI device

`probe_pci` (`lspci.cpp:63-95`) reads what the topology needs of a device, and the state of its PCIe link
from the first PCI Express capability.
-/

namespace Pcm.Pci

open StdString PointerWalk Bounded

/-- `struct bdf`, the address of a device. -/
structure Bdf where
  domainno : BitVec 32 := 0
  busno : UInt8 := 0
  devno : UInt8 := 0
  funcno : UInt8 := 0
  deriving DecidableEq, Repr

/-- `struct pci` without the children, as its constructors leave it. -/
structure PciDev where
  exist : Bool := false
  bdf : Bdf := {}
  offset0 : BitVec 32 := 0
  headerType : BitVec 8 := 0
  offset18 : BitVec 32 := 0
  linkInfo : BitVec 32 := 0
  deriving DecidableEq, Repr

/-- The configuration spaces of the devices that there are. -/
abbrev Machine := Bdf → Option ConfigSpace

/-- The constructor of `PciHandle` (`pci.cpp:852-874`). -/
def openHandle (machine : Machine) (a : Bdf) : Except StdException ConfigSpace :=
  match machine a with
  | some space => .ok space
  | none => .error (.runtime_error (ascii "PCM error: can't open PciHandle " ++ decimal a.domainno.toNat ++ ascii ":" ++
      decimal a.busno.toNat ++ ascii ":" ++ decimal a.devno.toNat ++ ascii ":" ++ decimal a.funcno.toNat))

/-- The handle that `probe_capability_pci_express` opens. -/
def capabilityHandle (machine : Machine) (a : Bdf) : Except StdException ConfigSpace :=
  openHandle machine { a with domainno := 0 }

/-- `(value >> 16) & 0x7f` of the word at `0xc`. -/
def headerTypeOf (space : ConfigSpace) : BitVec 8 := ((space 0xc >>> 16) &&& 0x7f).setWidth 8

/-- `probe_pci` -/
def probePci (machine : Machine) (p : PciDev) : Bounded StdException PciDev :=
  match machine p.bdf with
  | none => pure { p with exist := false }
  | some h =>
      if h 0 = BitVec.allOnes 32 then pure { p with exist := false }
      else if headerTypeOf h = 0 then
        if hasCapabilityList (h 4) then do
          let link ← probeCapability (capabilityHandle machine p.bdf) (h 0x34)
          return { p with
            offset0 := h 0, headerType := headerTypeOf h, linkInfo := link.getD p.linkInfo, exist := true }
        else pure { p with offset0 := h 0, headerType := headerTypeOf h, exist := true }
      else if headerTypeOf h = 1 then
        pure { p with offset0 := h 0, headerType := headerTypeOf h, offset18 := h 0x18, exist := true }
      else pure { p with offset0 := h 0, headerType := headerTypeOf h, exist := true }

/-! ## The list of capabilities -/

/-- The pointer in a byte, whose two low bits are reserved. -/
def pointer (byte : BitVec 8) : BitVec 8 := byte &&& 0xfc

/-- The first pointer, in the low byte of the word at `0x34`. -/
def firstPointer (space : ConfigSpace) : BitVec 8 := pointer (capId (space 0x34))

/-- The pointer of a capability. -/
def nextPointer (space : ConfigSpace) (c : BitVec 8) : BitVec 8 := pointer (capNext (space c.toNat))

/-- The capabilities from a pointer to the end of the list. -/
inductive CapabilityList (space : ConfigSpace) : BitVec 8 → List (BitVec 8) → Prop
  | nil : CapabilityList space 0 []
  | cons {c : BitVec 8} {l : List (BitVec 8)} (some : c ≠ 0) (rest : CapabilityList space (nextPointer space c) l) :
      CapabilityList space c (c :: l)

def isExpress (space : ConfigSpace) (c : BitVec 8) : Bool := capId (space c.toNat) = 0x10

/-- The word at offset `0x10` of the first PCI Express capability, and 0 when there is none. -/
def linkWord (space : ConfigSpace) (l : List (BitVec 8)) : BitVec 32 :=
  match l.find? (isExpress space) with
  | some c => space (c.toNat + 0x10)
  | none => 0

/-- No reserved bit is set in the first pointer and in those of the capabilities. -/
structure Plain (space : ConfigSpace) (l : List (BitVec 8)) : Prop where
  first : space 0x34 = (firstPointer space).setWidth 32
  next : ∀ c ∈ l, capNext (space c.toNat) = nextPointer space c

/-- Following the pointers as they are from a capability on comes to this word. -/
inductive LeadsTo (space : ConfigSpace) : BitVec 32 → BitVec 32 → Prop
  | express {c : BitVec 32} (found : capId (space c.toNat) = 0x10) : LeadsTo space c (space (c + 0x10).toNat)
  | last {c : BitVec 32} (other : capId (space c.toNat) ≠ 0x10) (none : capNext (space c.toNat) = 0) : LeadsTo space c 0
  | next {c w : BitVec 32} (other : capId (space c.toNat) ≠ 0x10) (some : capNext (space c.toNat) ≠ 0)
      (rest : LeadsTo space ((capNext (space c.toNat)).setWidth 32) w) : LeadsTo space c w

/-- The probed device has the link word of the list. -/
def LinkCorrect (machine : Machine) (a : Bdf) (space : ConfigSpace) (l : List (BitVec 8)) : Prop :=
  ∃ p, (probePci machine { bdf := a }).Returns (.ok p) ∧ p.linkInfo = linkWord space l

section Link

variable {machine : Machine} {a : Bdf} {space other : ConfigSpace} {l : List (BitVec 8)} {capPtr w : BitVec 32}

theorem leadsTo_of_list {c : BitVec 8} (list : CapabilityList space c l) (some : c ≠ 0)
    (plain : ∀ c ∈ l, capNext (space c.toNat) = nextPointer space c) :
    LeadsTo space (c.setWidth 32) (linkWord space l) := by
  induction list with
  | nil => exact absurd rfl some
  | @cons c l nonzero rest ih =>
      have same : (c.setWidth 32).toNat = c.toNat := by
        rw [BitVec.toNat_setWidth]
        exact Nat.mod_eq_of_lt (Nat.lt_trans c.isLt (by decide))
      have plainNext := plain c List.mem_cons_self
      by_cases express : capId (space c.toNat) = 0x10
      · have offset : (c.setWidth 32 + 0x10).toNat = c.toNat + 0x10 := by
          have small := c.isLt
          rw [BitVec.toNat_add, same]
          exact Nat.mod_eq_of_lt (by simp; omega)
        have word : linkWord space (c :: l) = space (c.setWidth 32 + 0x10).toNat := by
          have found : isExpress space c = true := decide_eq_true express
          rw [linkWord, List.find?_cons_of_pos found, offset]
        rw [word]
        exact .express (by rw [same]; exact express)
      · have word : linkWord space (c :: l) = linkWord space l := by
          rw [linkWord, List.find?_cons_of_neg (by rw [isExpress, decide_eq_false express]; exact Bool.false_ne_true)]
          rfl
        rw [word]
        by_cases last : nextPointer space c = 0
        · have none : l = [] := by
            rw [last] at rest
            cases rest with
            | nil => rfl
            | cons some => exact absurd rfl some
          rw [none]
          exact .last (by rw [same]; exact express) (by rw [same, plainNext]; exact last)
        · have later := ih last (fun d member => plain d (List.mem_cons_of_mem c member))
          rw [← plainNext] at later last
          exact .next (by rw [same]; exact express) (by rw [same]; exact last) (by rw [same]; exact later)

/-- The recursion comes to a word exactly when following the pointers does. -/
theorem returns_probeCapability_iff (other : ConfigSpace) (capPtr w : BitVec 32) :
    (∃ link, (probeCapability (.ok other) capPtr).Returns (.ok link) ∧ link.getD 0 = w) ↔ LeadsTo other capPtr w := by
  constructor
  · rintro ⟨link, ⟨fuel, same⟩, rfl⟩
    change iterate (capabilityStep (.ok other)) fuel capPtr = some (.ok link) at same
    induction fuel generalizing capPtr with
    | zero => cases same
    | succ fuel ih =>
        rw [iterate, capabilityStep] at same
        by_cases again : capId (other capPtr.toNat) ≠ 0x10 ∧ capNext (other capPtr.toNat) ≠ 0
        · simp only [if_pos again] at same
          exact .next again.1 again.2 (ih _ same)
        · simp only [if_neg again] at same
          by_cases express : capId (other capPtr.toNat) = 0x10
          · simp only [if_pos express] at same
            cases same
            exact .express express
          · simp only [if_neg express] at same
            cases same
            exact .last express (by_contra fun some => again ⟨express, some⟩)
  · intro leads
    induction leads with
    | @express c found =>
        have done : capabilityStep (.ok other) c = .ok (.done (some (other (c + 0x10).toNat))) := by
          rw [capabilityStep, if_neg (fun both => both.1 found), if_pos found]
        exact ⟨some (other (c + 0x10).toNat), ⟨1, by simp only [probeCapability, loop, iterate, done]⟩, rfl⟩
    | @last c other' none =>
        have done : capabilityStep (.ok other) c = .ok (.done Option.none) := by
          rw [capabilityStep, if_neg (fun both => both.2 none), if_neg other']
        exact ⟨Option.none, ⟨1, by simp only [probeCapability, loop, iterate, done]⟩, rfl⟩
    | @next c w other' some rest ih =>
        obtain ⟨link, returns, same⟩ := ih
        have again : capabilityStep (.ok other) c = .ok (.again ((capNext (other c.toNat)).setWidth 32)) :=
          if_pos ⟨other', some⟩
        exact ⟨link, (returns_again again).mpr returns, same⟩

theorem returns_probeCapability_error (e : StdException) (capPtr : BitVec 32) :
    (probeCapability (.error e) capPtr).Returns (.error e) := ⟨1, rfl⟩

theorem linkCorrect_iff_leadsTo (device : machine a = some space) (valid : space 0 ≠ BitVec.allOnes 32)
    (type0 : headerTypeOf space = 0) (listed : hasCapabilityList (space 4) = true) (l : List (BitVec 8)) :
    LinkCorrect machine a space l ↔
      ∃ other, machine { a with domainno := 0 } = some other ∧ LeadsTo other (space 0x34) (linkWord space l) := by
  let finish : Option (BitVec 32) → Bounded StdException PciDev := fun link =>
    pure { exist := true, bdf := a, offset0 := space 0, headerType := 0, linkInfo := link.getD 0 }
  have probed : probePci machine { bdf := a } =
      probeCapability (capabilityHandle machine a) (space 0x34) >>= finish := by
    rw [probePci]
    simp only [device, if_neg valid, type0, if_pos, listed]
    rfl
  have first : ∀ handle, (probeCapability handle (space 0x34)).Stable := fun handle => stable_loop _ _
  have second : ∀ link, (finish link).Stable := fun link => stable_pure _
  rw [LinkCorrect, probed]
  cases opened : machine { a with domainno := 0 } with
  | none =>
      obtain ⟨e, handle⟩ : ∃ e, capabilityHandle machine a = .error e :=
        ⟨_, by rw [capabilityHandle, openHandle, opened]⟩
      rw [handle]
      constructor
      · rintro ⟨p, returns, -⟩
        have failed := returns_bind_of_error (first _) second (returns_probeCapability_error e (space 0x34))
        have impossible := returns.unique ((first _).bind second) failed
        cases impossible
      · rintro ⟨other, found, -⟩
        cases found
  | some other =>
      have handle : capabilityHandle machine a = .ok other := by rw [capabilityHandle, openHandle, opened]
      rw [handle]
      constructor
      · rintro ⟨p, returns, same⟩
        refine ⟨other, rfl, (returns_probeCapability_iff other (space 0x34) _).mp ?_⟩
        rcases (returns_bind (first _) second).mp returns with ⟨e, -, failed⟩ | ⟨link, ok, later⟩
        · cases failed
        · obtain ⟨fuel, later⟩ := later
          cases later
          exact ⟨link, ok, same⟩
      · rintro ⟨_, ⟨⟩, leads⟩
        obtain ⟨link, ok, same⟩ := (returns_probeCapability_iff other (space 0x34) _).mpr leads
        exact ⟨_, (returns_bind_of_ok (first _) second ok).mpr ⟨0, rfl⟩, same⟩

/-- The link word of a device in segment 0 is right when no reserved bit is set in the pointers. In general the
capabilities are looked for in segment 0, from the pointer of the device itself. -/
theorem linkCorrect_iff (device : machine a = some space) (valid : space 0 ≠ BitVec.allOnes 32)
    (type0 : headerTypeOf space = 0) (listed : hasCapabilityList (space 4) = true)
    (list : CapabilityList space (firstPointer space) l) :
    LinkCorrect machine a space l ↔ (a.domainno = 0 ∧ l ≠ [] ∧ Plain space l) ∨
      ∃ other, machine { a with domainno := 0 } = some other ∧ LeadsTo other (space 0x34) (linkWord space l) := by
  rw [linkCorrect_iff_leadsTo device valid type0 listed l]
  refine ⟨Or.inr, ?_⟩
  rintro (⟨segment0, some, plain⟩ | leads)
  · have same : { a with domainno := 0 } = a := by rw [← segment0]
    have nonzero : firstPointer space ≠ 0 := by
      intro zero
      rw [zero] at list
      cases list with
      | nil => exact some rfl
      | cons nonzero => exact nonzero rfl
    refine ⟨space, by rw [same]; exact device, ?_⟩
    rw [plain.first]
    exact leadsTo_of_list list nonzero plain.next
  · exact leads

theorem LeadsTo.eq_of_express (leads : LeadsTo other capPtr w) (found : capId (other capPtr.toNat) = 0x10) :
    w = other (capPtr + 0x10).toNat := by
  cases leads with
  | express => rfl
  | last different => exact absurd found different
  | next different => exact absurd found different

/-- A device with one capability, of PCI Express, and this word for the link. -/
def linkSpace (link : BitVec 32) : ConfigSpace := fun offset =>
  if offset = 0 then 0x09988086
  else if offset = 4 then 0x100000
  else if offset = 0x34 then 0x40
  else if offset = 0x40 then 0x10
  else if offset = 0x50 then link
  else 0

theorem list_linkSpace (link : BitVec 32) : CapabilityList (linkSpace link) (firstPointer (linkSpace link)) [0x40] := by
  have first : firstPointer (linkSpace link) = 0x40 := by
    have word : linkSpace link 0x34 = 0x40 := rfl
    rw [firstPointer, word]
    decide
  have last : nextPointer (linkSpace link) 0x40 = 0 := by
    have word : linkSpace link (0x40 : BitVec 8).toNat = 0x10 := rfl
    rw [nextPointer, word]
    decide
  have rest : CapabilityList (linkSpace link) (nextPointer (linkSpace link) 0x40) [] := by
    rw [last]
    exact .nil
  rw [first]
  exact .cons (by decide) rest

/-- Devices with the same numbers in two segments. -/
def twoSegments : Machine := fun a =>
  if a = ⟨0, 0x80, 0, 0⟩ then some (linkSpace 0x3043)
  else if a = ⟨1, 0x80, 0, 0⟩ then some (linkSpace 0x1012)
  else none

/-- Power management, message signalled interrupts and PCI Express. -/
def chainSpace (link : BitVec 32) : ConfigSpace := fun offset =>
  if offset = 0 then 0x09988086
  else if offset = 4 then 0x100000
  else if offset = 0x34 then 0x40
  else if offset = 0x40 then 0x5001
  else if offset = 0x50 then 0x6005
  else if offset = 0x60 then 0x10
  else if offset = 0x70 then link
  else 0

theorem list_chainSpace (link : BitVec 32) :
    CapabilityList (chainSpace link) (firstPointer (chainSpace link)) [0x40, 0x50, 0x60] := by
  have word : chainSpace link 0x34 = 0x40 ∧ chainSpace link 0x40 = 0x5001 ∧ chainSpace link 0x50 = 0x6005 ∧
      chainSpace link 0x60 = 0x10 := ⟨rfl, rfl, rfl, rfl⟩
  have first : firstPointer (chainSpace link) = 0x40 := by
    rw [firstPointer, word.1]
    decide
  have second : nextPointer (chainSpace link) 0x40 = 0x50 := by
    change pointer (capNext (chainSpace link 0x40)) = 0x50
    rw [word.2.1]
    decide
  have third : nextPointer (chainSpace link) 0x50 = 0x60 := by
    change pointer (capNext (chainSpace link 0x50)) = 0x60
    rw [word.2.2.1]
    decide
  have last : nextPointer (chainSpace link) 0x60 = 0 := by
    change pointer (capNext (chainSpace link 0x60)) = 0
    rw [word.2.2.2]
    decide
  rw [first]
  refine .cons (by decide) ?_
  rw [second]
  refine .cons (by decide) ?_
  rw [third]
  refine .cons (by decide) ?_
  rw [last]
  exact .nil

/-- The third capability of a device in segment 0 has the link word. -/
theorem linkCorrect_iff_segment0 :
    linkWord (chainSpace 0x3043) [0x40, 0x50, 0x60] = 0x3043 ∧
      LinkCorrect (fun a => if a = ⟨0, 0x80, 0, 0⟩ then some (chainSpace 0x3043) else none) ⟨0, 0x80, 0, 0⟩
        (chainSpace 0x3043) [0x40, 0x50, 0x60] := by
  refine ⟨rfl, (linkCorrect_iff (a := ⟨0, 0x80, 0, 0⟩) rfl (by decide) rfl rfl (list_chainSpace 0x3043)).mpr (.inl ?_)⟩
  exact ⟨rfl, List.cons_ne_nil _ _, ⟨rfl, by decide⟩⟩

/-- The device of segment 1 gets the link word of that of segment 0. -/
theorem link_of_segment0 : twoSegments ⟨1, 0x80, 0, 0⟩ = some (linkSpace 0x1012) ∧
    linkSpace 0x1012 0 ≠ BitVec.allOnes 32 ∧ headerTypeOf (linkSpace 0x1012) = 0 ∧
    hasCapabilityList (linkSpace 0x1012 4) = true ∧
    CapabilityList (linkSpace 0x1012) (firstPointer (linkSpace 0x1012)) [0x40] ∧
    ¬ LinkCorrect twoSegments ⟨1, 0x80, 0, 0⟩ (linkSpace 0x1012) [0x40] := by
  refine ⟨rfl, by decide, rfl, rfl, list_linkSpace 0x1012, fun correct => ?_⟩
  obtain ⟨other, opened, leads⟩ :=
    (linkCorrect_iff_leadsTo (a := ⟨1, 0x80, 0, 0⟩) rfl (by decide) rfl rfl [0x40]).mp correct
  have segment0 : other = linkSpace 0x3043 := (Option.some.inj opened).symm
  rw [segment0] at leads
  have word := leads.eq_of_express rfl
  revert word
  decide

end Link

end Pcm.Pci
