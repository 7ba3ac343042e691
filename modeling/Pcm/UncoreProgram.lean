import Pcm.UncorePmu

/-!
# Routines that program uncore units

The routines of `PCM` and `ServerUncorePMUs` that freeze the units of one kind, put events into
their counters and let them run again (`cpucounters.cpp:6134-6147`, `6489-6501`, `9607-9638`,
`9903-10003`, `10735-10830`, `10886-11010`). Each is given the units it walks through and returns
the writes it makes.
-/

namespace Pcm

/-- Kinds of registers that neither freeze a unit nor select an event. -/
def RegisterKind.isSide : RegisterKind → Bool
  | .unitControl | .counterControl _ => false
  | .counterValue _ | .fixedCounterControl | .filter _ => true

/-- Writes to filters, fixed counters and counter values. -/
structure SideWrites where
  log : UncorePMU → Log
  owned : ∀ pmu, UncorePMU.Owned pmu.id (log pmu)
  side : ∀ pmu, ∀ w ∈ log pmu, w.1.kind.isSide

namespace SideWrites

open UncorePMU

def none : SideWrites where
  log := fun _ => []
  owned := fun _ => owned_nil _
  side := by simp

def append (a b : SideWrites) : SideWrites where
  log := fun pmu => a.log pmu ++ b.log pmu
  owned := fun pmu => (a.owned pmu).append (b.owned pmu)
  side := by
    intro pmu w mem
    rcases List.mem_append.mp mem with h | h
    · exact a.side pmu w h
    · exact b.side pmu w h

def assign (kind : RegisterKind) (value : BitVec 64) (side : kind.isSide := by rfl) :
    SideWrites where
  log := fun pmu => pmu.assign kind value
  owned := fun pmu => owned_assign pmu kind value
  side := by
    intro pmu w mem
    unfold UncorePMU.assign at mem
    split at mem
    · obtain rfl := List.mem_singleton.mp mem
      exact side
    · simp at mem

/-- The counter values of a unit set to zero, at most `ServerUncoreCounterState::maxCounters`. -/
def resetValues : SideWrites where
  log := fun pmu => (List.range (min 8 pmu.size)).flatMap fun c => pmu.assign (.counterValue c) 0
  owned := fun _ => Owned.flatMap fun _ _ => owned_assign _ _ _
  side := by
    intro pmu w mem
    obtain ⟨c, -, h⟩ := List.mem_flatMap.mp mem
    exact (assign (.counterValue c) 0).side pmu w h

theorem last_eq_none (side : SideWrites) (pmu : UncorePMU) {kind : RegisterKind}
    (other : kind.isSide = false) (r : Nat) : WriteLog.last (side.log pmu) ⟨r, kind⟩ = .none := by
  apply WriteLog.last_eq_none
  intro w mem same
  have := side.side pmu w mem
  rw [same] at this
  simp [other] at this

end SideWrites

/-! ## One unit -/

namespace UncorePMU

open WriteLog

/-- What the routines do with a unit: freeze it, make side writes, program events and unfreeze. -/
def programBox (model : CpuModel) (extra unfreeze : BitVec 64) (before after : SideWrites)
    (events : Option (Nat → BitVec 64)) (n : Nat) (pmu : UncorePMU) : Log :=
  (pmu.initFreeze model extra none).log ++ before.log pmu ++ pmu.program model events n unfreeze ++
    after.log pmu

variable {model : CpuModel} {extra unfreeze : BitVec 64} {before after : SideWrites}
  {events : Option (Nat → BitVec 64)} {n : Nat}

theorem owned_programBox (pmu : UncorePMU) :
    Owned pmu.id (pmu.programBox model extra unfreeze before after events n) :=
  (((owned_initFreeze _ _ _ _).append (before.owned pmu)).append (owned_program _ _ _ _ _)).append
    (after.owned pmu)

/-- The events that fit are in the counters. -/
theorem last_programBox_counterControl (events : Nat → BitVec 64) (pmu : UncorePMU) (c : Nat) :
    last (pmu.programBox model extra unfreeze before after (some events) n)
        (pmu.register (.counterControl c)) =
      if c < n ∧ pmu.has (.counterControl c) then some (model.controlValue (events c)) else none := by
  have quietBefore : last (before.log pmu) (pmu.register (.counterControl c)) = none :=
    before.last_eq_none pmu rfl _
  have quietAfter : last (after.log pmu) (pmu.register (.counterControl c)) = none :=
    after.last_eq_none pmu rfl _
  simp only [programBox, last_append, quietBefore, quietAfter, last_initFreeze_counterControl,
    last_program_counterControl, Option.none_or, Option.or_none]

theorem initFreeze_none_ok (model : CpuModel) (extra : BitVec 64) (pmu : UncorePMU) :
    (pmu.initFreeze model extra none).ok = true := by
  unfold initFreeze
  split
  · rfl
  · split
    · rfl
    · rfl

theorem last_programBox_unitControl {pmu : UncorePMU} (present : pmu.unitControl) :
    last (pmu.programBox model extra unfreeze before after events n) (pmu.register .unitControl) =
      some (if events.isSome ∧ unfreeze ≠ 0 then if model.sprUnitControl then 0 else unfreeze
        else if model.sprUnitControl then
          SPR_UNC_PMON_UNIT_CTL_FRZ + SPR_UNC_PMON_UNIT_CTL_RST_CONTROL
        else extra + UNC_PMON_UNIT_CTL_FRZ) := by
  have quietBefore : last (before.log pmu) (pmu.register .unitControl) = none :=
    before.last_eq_none pmu rfl _
  have quietAfter : last (after.log pmu) (pmu.register .unitControl) = none :=
    after.last_eq_none pmu rfl _
  simp only [programBox, last_append, quietBefore, quietAfter, Option.none_or,
    last_initFreeze_unitControl _ _ _ present, last_program_unitControl _ _ _ _ present,
    initFreeze_none_ok, if_true]
  split
  · rfl
  · rfl

end UncorePMU

/-! ## The routines -/

namespace Uncore

variable (model : CpuModel) (events : Option (Nat → BitVec 64)) (units : List UncorePMU)

/-- `programPCU` (`cpucounters.cpp:6134-6147`). -/
def programPCU (filter : BitVec 64) : Log :=
  units.flatMap (UncorePMU.programBox model UNC_PMON_UNIT_CTL_FRZ_EN UNC_PMON_UNIT_CTL_FRZ_EN
    (.assign (.filter 0) filter) .none events 4)

/-- `programCboOpcodeFilter` (`cpucounters.cpp:10709-10733`); `none` if it throws. -/
def programCboOpcodeFilter (opc0 nc opc1 loc rem : BitVec 32) : Option SideWrites :=
  match model with
  | .JAKETOWN => some (.assign (.filter 0) ((opc0 <<< 23).setWidth 64))
  | .IVYTOWN | .HASWELLX | .BDX_DE | .BDX =>
      some (.assign (.filter 1) ((opc0 <<< 20).setWidth 64))
  | .SKX =>
      some (.assign (.filter 1) ((opc0 <<< 9 + opc1 <<< 19).setWidth 64 +
        (if rem ≠ 0 then 1#64 <<< 0 else 0) + (if loc ≠ 0 then 1#64 <<< 1 else 0) + 1#64 <<< 4 +
        1#64 <<< 5 + (if nc ≠ 0 then 1#64 <<< 30 else 0)))
  | _ => none

/-- The filters of `programCbo`. -/
def cboFilters (opCode nc tid loc rem : BitVec 32) : Option SideWrites :=
  let opcode := match model with
    | .ICX | .SNOWRIDGE | .SPR | .EMR | .GNR | .GNR_D | .SRF | .GRR => some .none
    | _ => programCboOpcodeFilter model opCode nc 0 loc rem
  match model with
  | .HASWELLX | .BDX_DE | .BDX | .SKX =>
      if tid ≠ 0 then opcode.map (·.append (.assign (.filter 0) (tid.setWidth 64))) else opcode
  | _ => opcode

/-- The writes of a routine and whether it returns. -/
structure Outcome where
  log : Log
  returns : Bool

/-- `programCbo` with arguments (`cpucounters.cpp:10886-10916`). The opcode filter throws on some
models, when the first unit is frozen. -/
def programCbo (opCode nc tid loc rem : BitVec 32) : List UncorePMU → Outcome
  | [] => ⟨[], true⟩
  | pmu :: units =>
      match cboFilters model opCode nc tid loc rem with
      | none => ⟨(pmu.initFreeze model UNC_PMON_UNIT_CTL_FRZ_EN none).log, false⟩
      | some filters =>
          let rest := programCbo opCode nc tid loc rem units
          ⟨pmu.programBox model UNC_PMON_UNIT_CTL_FRZ_EN UNC_PMON_UNIT_CTL_FRZ_EN filters
            .resetValues events 8 ++ rest.log, rest.returns⟩

/-- `programCboRaw` (`cpucounters.cpp:10918-10942`). -/
def programCboRaw (filter0 filter1 : BitVec 64) : Log :=
  units.flatMap (UncorePMU.programBox model UNC_PMON_UNIT_CTL_FRZ_EN UNC_PMON_UNIT_CTL_FRZ_EN
    (.append (.assign (.filter 0) filter0) (.assign (.filter 1) filter1)) .resetValues events 4)

/-- A routine without side writes. -/
def programPlain (extra : BitVec 64) (n : Nat) : Log :=
  units.flatMap (UncorePMU.programBox model extra extra .none .none events n)

/-- `programMDF` (`cpucounters.cpp:10944-10952`). -/
def programMDF : Log := programPlain model events units UNC_PMON_UNIT_CTL_FRZ_EN 4

/-- `programUBOX` (`cpucounters.cpp:10954-10967`). It gives `program` no value to unfreeze. -/
def programUBOX : Log :=
  units.flatMap (UncorePMU.programBox model UNC_PMON_UNIT_CTL_FRZ_EN 0
    (.assign .fixedCounterControl UCLK_FIXED_CTL_EN) .none events 2)

/-- `programCXLCM` with an array (`cpucounters.cpp:10987-10998`). -/
def programCXLCM : Log := programPlain model events units UNC_PMON_UNIT_CTL_FRZ_EN 8

/-- `programCXLDP` with an array (`cpucounters.cpp:11000-11010`). -/
def programCXLDP : Log := programPlain model events units UNC_PMON_UNIT_CTL_FRZ_EN 4

/-- `programIIOCounters` on the units of the stacks it walks (`cpucounters.cpp:10776-10795`). -/
def programIIOCounters : Log := programPlain model events units UNC_PMON_UNIT_CTL_RSV 4

/-- `programIRPCounters` on the units of the stacks it walks (`cpucounters.cpp:10813-10830`). -/
def programIRPCounters : Log := programPlain model events units UNC_PMON_UNIT_CTL_RSV 2

/-- `programM2M` (`cpucounters.cpp:9972-9983`). -/
def programM2M : Log := programPlain model events units UNC_PMON_UNIT_CTL_RSV 4

/-- `programM3UPI` (`cpucounters.cpp:9985-9994`). -/
def programM3UPI : Log := programPlain model events units UNC_PMON_UNIT_CTL_RSV 4

/-- `programHA` (`cpucounters.cpp:9996-10003`). -/
def programHA : Log := programPlain model events units UNC_PMON_UNIT_CTL_RSV 4

/-- `enableAndResetMCFixedCounter` (`cpucounters.cpp:9894-9901`). -/
def enableAndResetMCFixedCounter : SideWrites :=
  .append (.assign .fixedCounterControl MC_CH_PCI_PMON_FIXED_CTL_EN)
    (.assign .fixedCounterControl (MC_CH_PCI_PMON_FIXED_CTL_EN + MC_CH_PCI_PMON_FIXED_CTL_RST))

/-- `programIMC` (`cpucounters.cpp:9903-9916`). -/
def programIMC : Log :=
  let extraIMC := if model = .SKX then UNC_PMON_UNIT_CTL_RSV else UNC_PMON_UNIT_CTL_FRZ_EN
  units.flatMap (UncorePMU.programBox model extraIMC extraIMC enableAndResetMCFixedCounter .none
    events 4)

/-- `programEDC` (`cpucounters.cpp:9918-9936`). -/
def programEDC : Log :=
  units.flatMap (UncorePMU.programBox model UNC_PMON_UNIT_CTL_FRZ_EN UNC_PMON_UNIT_CTL_FRZ_EN
    (if model = .KNL then .assign .fixedCounterControl EDC_CH_PCI_PMON_FIXED_CTL_EN
      else enableAndResetMCFixedCounter) .none events 4)

/-- The units that `program(RawPMUConfigs)` knows by number only, those of PCIe
(`cpucounters.cpp:6486-6498`); `initFreeze` is left out for both kinds. -/
def programPCIe (n : Nat) : Log :=
  units.flatMap (UncorePMU.program model events (min n 8) UNC_PMON_UNIT_CTL_FRZ_EN)

end Uncore

/-- Whether the model has UPI links (`cpucounters.h:2890-2900`). -/
def CpuModel.hasUPI : CpuModel → Bool
  | .SKX | .ICX | .SPR | .EMR | .GNR | .SRF => true
  | _ => false

namespace Uncore

def xpiExtra (model : CpuModel) : BitVec 64 :=
  if model.hasUPI then UNC_PMON_UNIT_CTL_RSV else UNC_PMON_UNIT_CTL_FRZ_EN

/-- One link in `programXPI`: the unit afterwards and the writes. -/
def programLink (model : CpuModel) (readback : Nat → BitVec 64) (events : Option (Nat → BitVec 64))
    (pmu : UncorePMU) : UncorePMU × Log :=
  let frozen := pmu.initFreeze model (xpiExtra model) (some (readback pmu.id))
  (frozen.pmu, if frozen.ok then
    frozen.log ++ frozen.pmu.program model events 4 (xpiExtra model) else frozen.log)

/-- `programXPI` with `cleanupQPIHandles` (`cpucounters.cpp:9607-9638`): the links that remain and
the writes. `readback` is what the unit control register of a link holds after it was written. -/
def programXPI (model : CpuModel) (readback : Nat → BitVec 64) (events : Option (Nat → BitVec 64))
    (units : List UncorePMU) : List UncorePMU × Log :=
  ((units.map fun pmu => (programLink model readback events pmu).1).filter (·.unitControl),
    units.flatMap fun pmu => (programLink model readback events pmu).2)

/-- A link is found disabled if its unit control register does not keep what was written. -/
def linkDisabled (model : CpuModel) (readback : Nat → BitVec 64) (pmu : UncorePMU) : Bool :=
  pmu.unitControl && !model.sprUnitControl &&
    (xpiExtra model &&& UNC_PMON_UNIT_CTL_VALID_BITS_MASK ≠
      readback pmu.id &&& UNC_PMON_UNIT_CTL_VALID_BITS_MASK)

/-! ## Loops over units -/

section Loops

open WriteLog UncorePMU

/-- Units have registers of their own, so a loop over them writes those of a unit in its pass. -/
theorem last_flatMap_unit {units : List UncorePMU} {f : UncorePMU → Log}
    (owned : ∀ pmu, Owned pmu.id (f pmu)) {pmu : UncorePMU} (mem : pmu ∈ units)
    (only : ∀ other ∈ units, other.id = pmu.id → other = pmu) (kind : RegisterKind) :
    last (units.flatMap f) (pmu.register kind) = last (f pmu) (pmu.register kind) := by
  apply last_flatMap_eq mem
  intro other otherMem different
  apply (owned other).last_other
  intro same
  exact different (only other otherMem same.symm)

/-- A loop over other units does not write the registers of a unit. -/
theorem last_flatMap_other {units : List UncorePMU} {f : UncorePMU → Log}
    (owned : ∀ pmu, Owned pmu.id (f pmu)) {pmu : UncorePMU}
    (others : ∀ other ∈ units, other.id ≠ pmu.id) (kind : RegisterKind) :
    last (units.flatMap f) (pmu.register kind) = none := by
  apply last_flatMap_eq_none
  intro other mem
  exact (owned other).last_other (Ne.symm (others other mem))

theorem initFreeze_link (model : CpuModel) (readback : Nat → BitVec 64) (pmu : UncorePMU) :
    let frozen := pmu.initFreeze model (xpiExtra model) (some (readback pmu.id))
    frozen.ok = !linkDisabled model readback pmu ∧
      frozen.pmu = if linkDisabled model readback pmu then { pmu with unitControl := false }
        else pmu := by
  unfold initFreeze linkDisabled
  cases pmu.unitControl with
  | false => simp
  | true =>
      cases model.sprUnitControl with
      | true => simp
      | false =>
          by_cases kept : xpiExtra model &&& UNC_PMON_UNIT_CTL_VALID_BITS_MASK =
              readback pmu.id &&& UNC_PMON_UNIT_CTL_VALID_BITS_MASK
          · simp [kept]
          · simp [kept]

theorem programLink_of_disabled {model : CpuModel} {readback : Nat → BitVec 64}
    {events : Option (Nat → BitVec 64)} {pmu : UncorePMU}
    (disabled : linkDisabled model readback pmu = true) :
    programLink model readback events pmu = ({ pmu with unitControl := false },
      (pmu.initFreeze model (xpiExtra model) (some (readback pmu.id))).log) := by
  obtain ⟨ok, after⟩ := initFreeze_link model readback pmu
  rw [disabled] at ok after
  simp only [programLink, ok, after]
  simp

theorem programLink_of_enabled {model : CpuModel} {readback : Nat → BitVec 64}
    {events : Option (Nat → BitVec 64)} {pmu : UncorePMU}
    (enabled : linkDisabled model readback pmu = false) :
    programLink model readback events pmu = (pmu,
      (pmu.initFreeze model (xpiExtra model) (some (readback pmu.id))).log ++
        pmu.program model events 4 (xpiExtra model)) := by
  obtain ⟨ok, after⟩ := initFreeze_link model readback pmu
  rw [enabled] at ok after
  simp only [programLink, ok, after]
  simp

theorem owned_programLink (model : CpuModel) (readback : Nat → BitVec 64)
    (events : Option (Nat → BitVec 64)) (pmu : UncorePMU) :
    Owned pmu.id (programLink model readback events pmu).2 := by
  cases status : linkDisabled model readback pmu with
  | true =>
      rw [programLink_of_disabled status]
      exact owned_initFreeze _ _ _ _
  | false =>
      rw [programLink_of_enabled status]
      exact (owned_initFreeze _ _ _ _).append (owned_program _ _ _ _ _)

/-- The links that remain are those with a unit control register that were not found disabled. -/
theorem programXPI_links (model : CpuModel) (readback : Nat → BitVec 64)
    (events : Option (Nat → BitVec 64)) (units : List UncorePMU) :
    (programXPI model readback events units).1 =
      units.filter fun pmu => pmu.unitControl && !linkDisabled model readback pmu := by
  simp only [programXPI]
  induction units with
  | nil => rfl
  | cons pmu units ih =>
      rw [List.map_cons, List.filter_cons, List.filter_cons, ih]
      cases status : linkDisabled model readback pmu with
      | true =>
          rw [programLink_of_disabled status]
          simp
      | false =>
          rw [programLink_of_enabled status]
          simp

/-- When `programCbo` returns, it has programmed all units. -/
theorem programCbo_log {model : CpuModel} {events : Option (Nat → BitVec 64)}
    {opCode nc tid loc rem : BitVec 32} {units : List UncorePMU}
    (returns : (programCbo model events opCode nc tid loc rem units).returns) :
    ∃ filters, (programCbo model events opCode nc tid loc rem units).log =
      units.flatMap (UncorePMU.programBox model UNC_PMON_UNIT_CTL_FRZ_EN UNC_PMON_UNIT_CTL_FRZ_EN
        filters .resetValues events 8) := by
  cases status : cboFilters model opCode nc tid loc rem with
  | none =>
      cases units with
      | nil => exact ⟨.none, rfl⟩
      | cons pmu units => simp [programCbo, status] at returns
  | some filters =>
      refine ⟨filters, ?_⟩
      clear returns
      induction units with
      | nil => rfl
      | cons pmu units ih => simp only [programCbo, status, ih, List.flatMap_cons]

end Loops

end Uncore

end Pcm
