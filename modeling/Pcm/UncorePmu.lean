import Mathlib.Data.BitVec
import Pcm.CpuModel
import Pcm.Lib.WriteLog

/-!
# Uncore PMU units

`UncorePMU` (`cpucounters.h:246-295`, `cpucounters.cpp:11390-11500`), a set of registers of which
some may be absent, and the template `PCM::program` that puts events into its counters
(`cpucounters.h:1258-1289`). Each operation is modelled by the writes it makes. The events of a
call are an array that may be null.
-/

namespace Pcm

inductive RegisterKind
  | unitControl
  | counterControl (c : Nat)
  | counterValue (c : Nat)
  | fixedCounterControl
  | filter (f : Nat)
  deriving DecidableEq, Repr

structure Register where
  unit : Nat
  kind : RegisterKind
  deriving DecidableEq, Repr

abbrev Log := List (Register × BitVec 64)

/-- The handles of a unit; a null `HWRegisterPtr` is `false`. The identifier stands for the
addresses of the registers. -/
structure UncorePMU where
  id : Nat
  unitControl : Bool := true
  counterControl : List Bool := [true, true, true, true]
  fixedCounterControl : Bool := false
  filter0 : Bool := false
  filter1 : Bool := false
  deriving DecidableEq, Repr

/-- The models whose unit control has the layout of Sapphire Rapids. -/
def CpuModel.sprUnitControl : CpuModel → Bool
  | .SPR | .EMR | .GNR | .GNR_D | .GRR | .SRF => true
  | _ => false

/-! ## Constants (`types.h:1074-1094`, `1413`) -/

def UNC_PMON_UNIT_CTL_RST_COUNTERS : BitVec 64 := 1#64 <<< 1
def UNC_PMON_UNIT_CTL_FRZ : BitVec 64 := 1#64 <<< 8
def UNC_PMON_UNIT_CTL_FRZ_EN : BitVec 64 := 1#64 <<< 16
def UNC_PMON_UNIT_CTL_RSV : BitVec 64 := 1#64 <<< 16 + 1#64 <<< 17
def SPR_UNC_PMON_UNIT_CTL_FRZ : BitVec 64 := 1#64 <<< 0
def SPR_UNC_PMON_UNIT_CTL_RST_CONTROL : BitVec 64 := 1#64 <<< 8
def SPR_UNC_PMON_UNIT_CTL_RST_COUNTERS : BitVec 64 := 1#64 <<< 9
def UNC_PMON_UNIT_CTL_VALID_BITS_MASK : BitVec 64 := 1#64 <<< 17 - 1
def MC_CH_PCI_PMON_FIXED_CTL_RST : BitVec 64 := 1#64 <<< 19
def MC_CH_PCI_PMON_FIXED_CTL_EN : BitVec 64 := 1#64 <<< 22
def EDC_CH_PCI_PMON_FIXED_CTL_EN : BitVec 64 := 1#64 <<< 0
def MC_CH_PCI_PMON_CTL_EN : BitVec 64 := 1#64 <<< 22
def UCLK_FIXED_CTL_EN : BitVec 64 := 1#64 <<< 22

/-- The bit that stops the counters of a unit. -/
def CpuModel.freezeBit (model : CpuModel) : BitVec 64 :=
  if model.sprUnitControl then SPR_UNC_PMON_UNIT_CTL_FRZ else UNC_PMON_UNIT_CTL_FRZ

/-- What a counter control register holds for an event: the enable bit is needed on older models. -/
def CpuModel.controlValue (model : CpuModel) (event : BitVec 64) : BitVec 64 :=
  if model.sprUnitControl then event else MC_CH_PCI_PMON_CTL_EN ||| event

namespace UncorePMU

def size (pmu : UncorePMU) : Nat := pmu.counterControl.length

def has (pmu : UncorePMU) : RegisterKind → Bool
  | .unitControl => pmu.unitControl
  | .counterControl c => pmu.counterControl.getD c false
  | .counterValue c => c < pmu.size
  | .fixedCounterControl => pmu.fixedCounterControl
  | .filter 0 => pmu.filter0
  | .filter _ => pmu.filter1

def register (pmu : UncorePMU) (kind : RegisterKind) : Register := ⟨pmu.id, kind⟩

/-- `*reg = value`. Where the source does not look whether there is a register, the units it is
used for have one. -/
def assign (pmu : UncorePMU) (kind : RegisterKind) (value : BitVec 64) : Log :=
  if pmu.has kind then [(pmu.register kind, value)] else []

/-! ## Operations -/

/-- `cleanup` (`cpucounters.cpp:11390-11399`). -/
def cleanup (pmu : UncorePMU) : Log :=
  ((List.range pmu.size).flatMap fun c => pmu.assign (.counterControl c) 0) ++
    pmu.assign .unitControl 0 ++ pmu.assign .fixedCounterControl 0

structure FreezeResult where
  ok : Bool
  pmu : UncorePMU
  log : Log

/-- `initFreeze` (`cpucounters.cpp:11437-11480`), in a build without
`PCM_UNCORE_PMON_BOX_CHECK_STATUS`. With a message for xPI links the unit control register is read
back, here with `readback`, and a link that does not keep what was written loses its handle. -/
def initFreeze (model : CpuModel) (extra : BitVec 64) (readback : Option (BitVec 64))
    (pmu : UncorePMU) : FreezeResult :=
  if !pmu.unitControl then ⟨true, pmu, []⟩
  else if model.sprUnitControl then
    ⟨true, pmu, pmu.assign .unitControl SPR_UNC_PMON_UNIT_CTL_FRZ ++
      pmu.assign .unitControl (SPR_UNC_PMON_UNIT_CTL_FRZ + SPR_UNC_PMON_UNIT_CTL_RST_CONTROL)⟩
  else if readback.any fun value => extra &&& UNC_PMON_UNIT_CTL_VALID_BITS_MASK ≠
      value &&& UNC_PMON_UNIT_CTL_VALID_BITS_MASK then
    ⟨false, { pmu with unitControl := false }, pmu.assign .unitControl extra⟩
  else
    ⟨true, pmu, pmu.assign .unitControl extra ++
      pmu.assign .unitControl (extra + UNC_PMON_UNIT_CTL_FRZ)⟩

/-- `resetUnfreeze` (`cpucounters.cpp:11482-11500`). -/
def resetUnfreeze (model : CpuModel) (extra : BitVec 64) (pmu : UncorePMU) : Log :=
  if model.sprUnitControl then
    pmu.assign .unitControl (SPR_UNC_PMON_UNIT_CTL_FRZ + SPR_UNC_PMON_UNIT_CTL_RST_COUNTERS) ++
      pmu.assign .unitControl 0
  else
    pmu.assign .unitControl (extra + UNC_PMON_UNIT_CTL_FRZ + UNC_PMON_UNIT_CTL_RST_COUNTERS) ++
      pmu.assign .unitControl extra

/-- One pass of the loop in `program`. -/
def programCounter (model : CpuModel) (event : BitVec 64) (pmu : UncorePMU) (c : Nat) : Log :=
  if model.sprUnitControl then pmu.assign (.counterControl c) event
  else pmu.assign (.counterControl c) MC_CH_PCI_PMON_CTL_EN ++
    pmu.assign (.counterControl c) (MC_CH_PCI_PMON_CTL_EN ||| event)

/-- `program(pmu, events, events + n, extra)` (`cpucounters.h:1258-1289`). -/
def program (model : CpuModel) (events : Option (Nat → BitVec 64)) (n : Nat) (extra : BitVec 64)
    (pmu : UncorePMU) : Log :=
  match events with
  | none => []
  | some events =>
      ((List.range (min n pmu.size)).flatMap fun c => pmu.programCounter model (events c) c) ++
        if extra ≠ 0 then pmu.resetUnfreeze model extra else []

/-! ## What the operations write -/

open WriteLog

theorem has_counterControl {pmu : UncorePMU} {c : Nat} (h : pmu.has (.counterControl c)) :
    c < pmu.size := by
  by_contra above
  rw [has, List.getD_eq_getElem?_getD, List.getElem?_eq_none (Nat.le_of_not_lt above)] at h
  exact Bool.false_ne_true h

theorem last_assign (pmu : UncorePMU) (kind : RegisterKind) (value : BitVec 64) :
    last (pmu.assign kind value) (pmu.register kind) =
      if pmu.has kind then some value else none := by
  unfold assign
  split
  · simp [last_cons]
  · rfl

theorem last_assign_other (pmu : UncorePMU) {kind other : RegisterKind} (h : other ≠ kind)
    (value : BitVec 64) : last (pmu.assign other value) (pmu.register kind) = none := by
  apply last_eq_none
  intro w mem
  unfold assign at mem
  split at mem
  · obtain rfl := List.mem_singleton.mp mem
    intro same
    exact h (congrArg Register.kind same)
  · simp at mem

/-- All writes go to registers of one unit. -/
def Owned (unit : Nat) (log : Log) : Prop := ∀ w ∈ log, w.1.unit = unit

theorem Owned.append {unit : Nat} {a b : Log} (ha : Owned unit a) (hb : Owned unit b) :
    Owned unit (a ++ b) := by
  intro w mem
  rcases List.mem_append.mp mem with h | h
  · exact ha w h
  · exact hb w h

theorem Owned.flatMap {α : Type*} {unit : Nat} {l : List α} {f : α → Log}
    (h : ∀ a ∈ l, Owned unit (f a)) : Owned unit (l.flatMap f) := by
  intro w mem
  obtain ⟨a, ha, hw⟩ := List.mem_flatMap.mp mem
  exact h a ha w hw

theorem Owned.last_other {unit : Nat} {log : Log} (h : Owned unit log) {r : Register}
    (other : r.unit ≠ unit) : last log r = none := by
  apply last_eq_none
  intro w mem same
  exact other (same ▸ h w mem)

theorem owned_nil (unit : Nat) : Owned unit [] := by
  intro w mem
  simp at mem

theorem owned_assign (pmu : UncorePMU) (kind : RegisterKind) (value : BitVec 64) :
    Owned pmu.id (pmu.assign kind value) := by
  intro w mem
  unfold assign at mem
  split at mem
  · obtain rfl := List.mem_singleton.mp mem
    rfl
  · simp at mem

theorem owned_initFreeze (model : CpuModel) (extra : BitVec 64) (readback : Option (BitVec 64))
    (pmu : UncorePMU) : Owned pmu.id (pmu.initFreeze model extra readback).log := by
  unfold initFreeze
  split
  · exact owned_nil _
  · split
    · exact (owned_assign _ _ _).append (owned_assign _ _ _)
    · split
      · exact owned_assign _ _ _
      · exact (owned_assign _ _ _).append (owned_assign _ _ _)

theorem owned_resetUnfreeze (model : CpuModel) (extra : BitVec 64) (pmu : UncorePMU) :
    Owned pmu.id (pmu.resetUnfreeze model extra) := by
  unfold resetUnfreeze
  split
  · exact (owned_assign _ _ _).append (owned_assign _ _ _)
  · exact (owned_assign _ _ _).append (owned_assign _ _ _)

theorem owned_program (model : CpuModel) (events : Option (Nat → BitVec 64)) (n : Nat)
    (extra : BitVec 64) (pmu : UncorePMU) : Owned pmu.id (pmu.program model events n extra) := by
  cases events with
  | none => exact owned_nil _
  | some events =>
      refine Owned.append (Owned.flatMap fun c _ => ?_) ?_
      · unfold programCounter
        split
        · exact owned_assign _ _ _
        · exact (owned_assign _ _ _).append (owned_assign _ _ _)
      · split
        · exact owned_resetUnfreeze _ _ _
        · exact owned_nil _

/-! ### Counter control -/

theorem last_assign_unitControl (pmu : UncorePMU) (c : Nat) (value : BitVec 64) :
    last (pmu.assign .unitControl value) (pmu.register (.counterControl c)) = none :=
  last_assign_other pmu (by simp) value

theorem last_initFreeze_counterControl (model : CpuModel) (extra : BitVec 64)
    (readback : Option (BitVec 64)) (pmu : UncorePMU) (c : Nat) :
    last (pmu.initFreeze model extra readback).log (pmu.register (.counterControl c)) = none := by
  have quiet := last_assign_unitControl pmu c
  unfold initFreeze
  split
  · rfl
  · split
    · rw [last_append, quiet, quiet, Option.or_none]
    · split
      · exact quiet _
      · rw [last_append, quiet, quiet, Option.or_none]

theorem last_resetUnfreeze_counterControl (model : CpuModel) (extra : BitVec 64) (pmu : UncorePMU)
    (c : Nat) :
    last (pmu.resetUnfreeze model extra) (pmu.register (.counterControl c)) = none := by
  have quiet := last_assign_unitControl pmu c
  unfold resetUnfreeze
  split
  · rw [last_append, quiet, quiet, Option.or_none]
  · rw [last_append, quiet, quiet, Option.or_none]

theorem last_programCounter (model : CpuModel) (event : BitVec 64) (pmu : UncorePMU) (c : Nat) :
    last (pmu.programCounter model event c) (pmu.register (.counterControl c)) =
      if pmu.has (.counterControl c) then some (model.controlValue event) else none := by
  unfold programCounter CpuModel.controlValue
  split
  · rw [last_assign]
  · rw [last_append, last_assign, last_assign]
    split <;> simp

theorem last_programCounter_other (model : CpuModel) (event : BitVec 64) (pmu : UncorePMU) {c : Nat}
    {kind : RegisterKind} (h : kind ≠ .counterControl c) :
    last (pmu.programCounter model event c) (pmu.register kind) = none := by
  have quiet := fun value => last_assign_other pmu (Ne.symm h) value
  unfold programCounter
  split
  · rw [quiet]
  · rw [last_append, quiet, quiet, Option.or_none]

/-- `program` puts event `c` into counter `c`, as far as both the array and the unit go. -/
theorem last_program_counterControl (model : CpuModel) (events : Nat → BitVec 64) (n : Nat)
    (extra : BitVec 64) (pmu : UncorePMU) (c : Nat) :
    last (pmu.program model (some events) n extra) (pmu.register (.counterControl c)) =
      if c < n ∧ pmu.has (.counterControl c) then some (model.controlValue (events c)) else none := by
  have tail : last (if extra ≠ 0 then pmu.resetUnfreeze model extra else [])
      (pmu.register (.counterControl c)) = none := by
    split
    · exact last_resetUnfreeze_counterControl _ _ _ _
    · rfl
  have others : ∀ d, d ≠ c → last (pmu.programCounter model (events d) d)
      (pmu.register (.counterControl c)) = none := by
    intro d different
    apply last_programCounter_other
    intro same
    exact different (RegisterKind.counterControl.inj same).symm
  simp only [program, last_append, tail, Option.none_or]
  by_cases inside : c < min n pmu.size
  · rw [last_flatMap_eq (List.mem_range.mpr inside) fun d _ => others d, last_programCounter]
    simp only [show c < n by omega, true_and]
  · rw [last_flatMap_eq_none, if_neg]
    · rintro ⟨below, present⟩
      have := has_counterControl present
      omega
    · intro d mem
      apply others
      rintro rfl
      exact inside (List.mem_range.mp mem)

/-! ### Unit control -/

theorem last_resetUnfreeze_unitControl (model : CpuModel) (extra : BitVec 64) {pmu : UncorePMU}
    (present : pmu.unitControl) :
    last (pmu.resetUnfreeze model extra) (pmu.register .unitControl) =
      some (if model.sprUnitControl then 0 else extra) := by
  have here : pmu.has .unitControl := present
  unfold resetUnfreeze
  split
  · rw [last_append, last_assign, if_pos here, Option.some_or]
  · rw [last_append, last_assign, if_pos here, Option.some_or]

/-- With an array and a value to unfreeze, `program` ends with the unit running; else it leaves the
unit control register alone. -/
theorem last_program_unitControl (model : CpuModel) (events : Option (Nat → BitVec 64)) (n : Nat)
    (extra : BitVec 64) {pmu : UncorePMU} (present : pmu.unitControl) :
    last (pmu.program model events n extra) (pmu.register .unitControl) =
      if events.isSome ∧ extra ≠ 0 then some (if model.sprUnitControl then 0 else extra)
      else none := by
  cases events with
  | none => simp [program]
  | some events =>
      have counters : last ((List.range (min n pmu.size)).flatMap fun c =>
          pmu.programCounter model (events c) c) (pmu.register .unitControl) = none := by
        apply last_flatMap_eq_none
        intro c _
        exact last_programCounter_other _ _ _ (by simp)
      simp only [program, last_append, counters, Option.or_none, Option.isSome_some, true_and]
      split
      · exact last_resetUnfreeze_unitControl _ _ present
      · rfl

/-- After `initFreeze` a unit is frozen, unless it lost its handle. -/
theorem last_initFreeze_unitControl (model : CpuModel) (extra : BitVec 64)
    (readback : Option (BitVec 64)) {pmu : UncorePMU} (present : pmu.unitControl) :
    last (pmu.initFreeze model extra readback).log (pmu.register .unitControl) =
      some (if (pmu.initFreeze model extra readback).ok then
          if model.sprUnitControl then
            SPR_UNC_PMON_UNIT_CTL_FRZ + SPR_UNC_PMON_UNIT_CTL_RST_CONTROL
          else extra + UNC_PMON_UNIT_CTL_FRZ
        else extra) := by
  have here : pmu.has .unitControl := present
  unfold initFreeze
  rw [if_neg (by simp [present])]
  by_cases layout : model.sprUnitControl
  · simp only [layout, if_true, last_append, last_assign, here, Option.some_or]
  · simp only [layout, Bool.false_eq_true, if_false]
    split
    · simp only [last_assign, here, if_true, Bool.false_eq_true, if_false]
    · simp only [last_append, last_assign, here, if_true, Option.some_or]

/-! ### Cleaning up -/

theorem value_of_mem_assign {pmu : UncorePMU} {kind : RegisterKind} {value : BitVec 64}
    {w : Register × BitVec 64} (mem : w ∈ pmu.assign kind value) : w.2 = value := by
  unfold assign at mem
  split at mem
  · rw [List.mem_singleton.mp mem]
  · simp at mem

theorem mem_assign {pmu : UncorePMU} {kind : RegisterKind} (present : pmu.has kind)
    (value : BitVec 64) : (pmu.register kind, value) ∈ pmu.assign kind value := by
  rw [assign, if_pos present]
  exact List.mem_singleton_self _

/-- `cleanup` writes nothing but zeros. -/
theorem value_of_mem_cleanup {pmu : UncorePMU} {w : Register × BitVec 64} (mem : w ∈ pmu.cleanup) :
    w.2 = 0 := by
  simp only [cleanup, List.mem_append, List.mem_flatMap] at mem
  rcases mem with (⟨c, -, h⟩ | h) | h
  · exact value_of_mem_assign h
  · exact value_of_mem_assign h
  · exact value_of_mem_assign h

theorem mem_cleanup_unitControl {pmu : UncorePMU} (present : pmu.has .unitControl) :
    (pmu.register .unitControl, 0) ∈ pmu.cleanup := by
  simp only [cleanup, List.mem_append]
  exact Or.inl (Or.inr (mem_assign present 0))

theorem mem_cleanup_counterControl {pmu : UncorePMU} {c : Nat}
    (present : pmu.has (.counterControl c)) :
    (pmu.register (.counterControl c), 0) ∈ pmu.cleanup := by
  simp only [cleanup, List.mem_append, List.mem_flatMap]
  exact Or.inl (Or.inl ⟨c, List.mem_range.mpr (has_counterControl present), mem_assign present 0⟩)

end UncorePMU

end Pcm
