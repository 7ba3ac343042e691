import Pcm.CoreProgram
import Pcm.UncoreUnits

/-!
# Uncore events of a raw configuration

The loop of `program(RawPMUConfigs)` over the entries of a configuration
(`cpucounters.cpp:6258-6346`, `6478-6505`). The number of events is checked against one limit for all
types, while each routine takes as many events as it was written for; what comes to the counters of
a unit is therefore described here position by position.
-/

namespace Pcm

/-! ## Entries -/

/-- The types of entries that are registers to read. -/
inductive RegisterEvent
  | package_msr
  | thread_msr
  | pcicfg
  | mmio
  | pmt
  | tpmi
  deriving DecidableEq, Repr

def registerEventOf : String → Option RegisterEvent
  | "package_msr" => some .package_msr
  | "thread_msr" => some .thread_msr
  | "pcicfg" => some .pcicfg
  | "mmio" => some .mmio
  | "pmt" => some .pmt
  | "tpmi" => some .tpmi
  | _ => none

/-- `isRegisterEvent` (`utils.cpp:1146-1159`). -/
def isRegisterEvent (name : String) : Bool := (registerEventOf name).isSome

def pmuTypeOf : String → Option PmuType
  | "m3upi" => some .m3upi
  | "xpi" | "upi" | "qpi" => some .xpi
  | "imc" => some .imc
  | "ha" => some .ha
  | "m2m" => some .m2m
  | "pcu" => some .pcu
  | "ubox" => some .ubox
  | "cbo" | "cha" => some .cbo
  | "mdf" => some .mdf
  | "irp" => some .irp
  | "iio" => some .iio
  | "cxlcm" => some .cxlcm
  | "cxldp" => some .cxldp
  | "pciex8" => some .pciex8
  | "pciex16" => some .pciex16
  | _ => none

/-- What happens to an entry: one without events is skipped, one with too many or of an unknown type
ends the call with an error. -/
inductive EntryAction
  | skip
  | reject
  | program (type : PmuType)
  | register (event : RegisterEvent)
  deriving DecidableEq, Repr

def entryAction (entry : String × RawPMUConfig) : EntryAction :=
  if entry.2.programmable.isEmpty && entry.2.fixed.isEmpty then .skip
  else if 8 < entry.2.programmable.length && !isRegisterEvent entry.1 then .reject
  else match pmuTypeOf entry.1, registerEventOf entry.1 with
    | some type, _ => .program type
    | none, some event => .register event
    | none, none => .reject

/-- The entries that are left when the core PMUs are programmed. -/
def RawPMUConfigs.uncoreEntries (configs : RawPMUConfigs) : List (String × RawPMUConfig) :=
  configs.entries.filter fun entry => entry.1 ≠ "core" && entry.1 ≠ "atom"

namespace RawPMUConfig

/-- The array `events64`. -/
def events64 (config : RawPMUConfig) : Nat → BitVec 64 :=
  registers ((config.programmable.take 8).map (·.encoding.get 0))

/-- The array `events32`, as it is written to registers. -/
def events32 (config : RawPMUConfig) : Nat → BitVec 64 :=
  registers ((config.programmable.take 8).map fun event =>
    ((event.encoding.get 0).setWidth 32).setWidth 64)

/-- A filter value, taken from the first event. -/
def filter (config : RawPMUConfig) (position : Fin 6) : BitVec 64 :=
  match config.programmable.head? with
  | some event => event.encoding.get position
  | none => 0

end RawPMUConfig

/-! ## Programming -/

open Uncore

theorem programXPI_subset (model : CpuModel) (readback : Nat → BitVec 64)
    (events : Option (Nat → BitVec 64)) (l : List UncorePMU) :
    (programXPI model readback events l).1 ⊆ l := by
  rw [programXPI_links]
  exact List.filter_subset_self l

namespace UncoreUnits

/-- `programXPI` on every socket. -/
def programXPI (u : UncoreUnits) (model : CpuModel) (readback : Nat → BitVec 64)
    (events : Option (Nat → BitVec 64)) : UncoreUnits × Log :=
  (u.dropLinks (fun l => (Uncore.programXPI model readback events l).1)
      (programXPI_subset model readback events),
    u.serverUncorePMUs.flatMap fun s => (Uncore.programXPI model readback events s.xpiPMUs).2)

/-- The links that are not found disabled remain. -/
theorem mem_links_programXPI (u : UncoreUnits) {model : CpuModel} {readback : Nat → BitVec 64}
    {events : Option (Nat → BitVec 64)} {link : UncorePMU} :
    link ∈ (u.programXPI model readback events).1.named .xpi ↔
      link ∈ u.named .xpi ∧ linkDisabled model readback link = false := by
  change link ∈ (u.updateXPI _).named .xpi ↔ _
  rw [UnitLists.named_updateXPI]
  simp only [programXPI_links, List.mem_flatMap, List.mem_filter, UnitLists.named]
  constructor
  · rintro ⟨s, server, mem, keeps⟩
    simp only [Bool.and_eq_true, Bool.not_eq_true'] at keeps
    exact ⟨⟨s, server, mem⟩, keeps.2⟩
  · rintro ⟨⟨s, server, mem⟩, enabled⟩
    have valid := u.links link (List.mem_flatMap.mpr ⟨s, server, mem⟩)
    exact ⟨s, server, mem, by simp [valid, enabled]⟩

/-- The branches of the loop that program units: the lists afterwards and the writes. -/
def programType (u : UncoreUnits) (model : CpuModel) (readback : Nat → BitVec 64)
    (config : RawPMUConfig) : PmuType → UncoreUnits × Log
  | .m3upi => (u, u.serverUncorePMUs.flatMap fun s =>
      programM3UPI model (some config.events32) s.m3upiPMUs)
  | .xpi => u.programXPI model readback (some config.events32)
  | .imc => (u, u.serverUncorePMUs.flatMap fun s =>
      programIMC model (some config.events32) s.imcPMUs)
  | .ha => (u, u.serverUncorePMUs.flatMap fun s => programHA model (some config.events32) s.haPMUs)
  | .m2m => (u, u.serverUncorePMUs.flatMap fun s =>
      programM2M model (some config.events64) s.m2mPMUs)
  | .pcu => (u, programPCU model (some config.events32) (u.uncorePMUs .PCU_PMU_ID)
      (config.filter 1))
  | .ubox => (u, programUBOX model (some config.events64) (u.uncorePMUs .UBOX_PMU_ID))
  | .cbo => (u, programCboRaw model (some config.events64) (u.uncorePMUs .CBO_PMU_ID)
      (config.filter 1) (config.filter 2))
  | .mdf => (u, programMDF model (some config.events64) (u.uncorePMUs .MDF_PMU_ID))
  | .irp => (u, programIRPCounters model (some config.events64) (u.walked model .irp))
  | .iio => (u, programIIOCounters model (some config.events64) (u.walked model .iio))
  | .cxlcm => (u, programCXLCM model (some config.events64) (u.cxlPMUs.map Prod.fst))
  | .cxldp => (u, programCXLDP model (some config.events64) (u.cxlPMUs.map Prod.snd))
  | .pciex8 => (u, programPCIe model (some config.events64) (u.uncorePMUs .PCIE_GEN5x8_PMU_ID)
      config.programmable.length)
  | .pciex16 => (u, programPCIe model (some config.events64) (u.uncorePMUs .PCIE_GEN5x16_PMU_ID)
      config.programmable.length)

/-- The loop: whether it comes to the end, the lists afterwards and the writes. `readback` is what
the unit control registers of the links hold during the call. -/
def programEntries (model : CpuModel) (readback : Nat → BitVec 64) :
    List (String × RawPMUConfig) → UncoreUnits → Bool × UncoreUnits × Log
  | [], u => (true, u, [])
  | entry :: entries, u =>
      match entryAction entry with
      | .skip | .register _ => programEntries model readback entries u
      | .reject => (false, u, [])
      | .program type =>
          let first := u.programType model readback entry.2 type
          let rest := programEntries model readback entries first.1
          (rest.1, rest.2.1, first.2 ++ rest.2.2)

end UncoreUnits

/-- What a call of `program(RawPMUConfigs)` leaves behind. -/
structure RawResult where
  status : ErrorCode
  core : CoreState
  units : UncoreUnits
  log : Log

/-- `program(RawPMUConfigs)` (`cpucounters.cpp:6149-6505`), the cores and the uncore units. -/
def programRawConfigs (inst : Instance) (configs : RawPMUConfigs) (call : Call)
    (readback : Nat → BitVec 64) (core : CoreState) (u : UncoreUnits) : RawResult :=
  let first := core.programRaw inst configs call
  if first.1 = .success then
    let rest := UncoreUnits.programEntries inst.cpuFamilyModel readback configs.uncoreEntries u
    ⟨if rest.1 then .success else .unknownError, first.2, rest.2.1, rest.2.2⟩
  else ⟨first.1, first.2, u, []⟩

/-! ## Positions -/

/-- How many events the routine for a type takes. -/
def PmuType.limit (config : RawPMUConfig) : PmuType → Nat
  | .ubox | .irp => 2
  | .cxlcm => 8
  | .pciex8 | .pciex16 => min config.programmable.length 8
  | _ => 4

/-- The array that is given to the routine for a type. -/
def PmuType.array (config : RawPMUConfig) : PmuType → Nat → BitVec 64
  | .m3upi | .xpi | .imc | .ha | .pcu => config.events32
  | _ => config.events64

/-- Links that are found disabled are not programmed. -/
def PmuType.enabled (model : CpuModel) (readback : Nat → BitVec 64) (pmu : UncorePMU) :
    PmuType → Bool
  | .xpi => !linkDisabled model readback pmu
  | _ => true

/-- The words for counter `i` that the entries hand to the routine for a type, in their order. -/
def deliveries (type : PmuType) (i : Nat) (entries : List (String × RawPMUConfig)) :
    List (BitVec 64) :=
  entries.filterMap fun entry =>
    if entryAction entry = .program type ∧ i < type.limit entry.2 then some (type.array entry.2 i)
    else none

/-- Counter `i` of a unit is within reach of the routine for its type. -/
def reached (u : UncoreUnits) (model : CpuModel) (readback : Nat → BitVec 64) (type : PmuType)
    (pmu : UncorePMU) (i : Nat) : Bool :=
  decide (pmu ∈ u.walked model type) && type.enabled model readback pmu &&
    pmu.has (.counterControl i)

/-! ## What a routine writes -/

open WriteLog UncorePMU

variable {model : CpuModel} {readback : Nat → BitVec 64}

/-- A pass of the routine for a type puts the words of the array into the counters. -/
structure ProgramsUnit (model : CpuModel) (readback : Nat → BitVec 64) (config : RawPMUConfig)
    (type : PmuType) (pass : UncorePMU → Log) : Prop where
  owned : ∀ pmu, Owned pmu.id (pass pmu)
  counter : ∀ pmu i, last (pass pmu) (pmu.register (.counterControl i)) =
    if (type.enabled model readback pmu && pmu.has (.counterControl i)) ∧ i < type.limit config then
      some (model.controlValue (type.array config i)) else none

theorem programsUnit_box {config : RawPMUConfig} {type : PmuType} {extra unfreeze : BitVec 64}
    {before after : SideWrites} (enabled : ∀ pmu, type.enabled model readback pmu = true) :
    ProgramsUnit model readback config type (programBox model extra unfreeze before after
      (some (type.array config)) (type.limit config)) where
  owned := owned_programBox
  counter := by
    intro pmu i
    rw [last_programBox_counterControl, enabled pmu, Bool.true_and]
    simp only [and_comm]

theorem programsUnit_link (config : RawPMUConfig) :
    ProgramsUnit model readback config .xpi fun pmu =>
      (programLink model readback (some config.events32) pmu).2 where
  owned := owned_programLink model readback _
  counter := by
    intro pmu i
    cases status : linkDisabled model readback pmu with
    | true =>
        rw [programLink_of_disabled status, last_initFreeze_counterControl]
        simp [PmuType.enabled, status]
    | false =>
        rw [programLink_of_enabled status, last_append, last_initFreeze_counterControl,
          last_program_counterControl, Option.or_none]
        simp [PmuType.enabled, status, PmuType.limit, PmuType.array, and_comm]

theorem programsUnit_pcie {config : RawPMUConfig} {type : PmuType}
    (pcie : type = .pciex8 ∨ type = .pciex16) :
    ProgramsUnit model readback config type (UncorePMU.program model (some config.events64)
      (min config.programmable.length 8) UNC_PMON_UNIT_CTL_FRZ_EN) where
  owned := owned_program model _ _ _
  counter := by
    intro pmu i
    rw [last_program_counterControl]
    rcases pcie with rfl | rfl
    · simp [PmuType.enabled, PmuType.limit, PmuType.array, and_comm]
    · simp [PmuType.enabled, PmuType.limit, PmuType.array, and_comm]

/-- The routine for a type is one loop over the units that it walks through. -/
theorem programType_log (model : CpuModel) (readback : Nat → BitVec 64) (u : UncoreUnits)
    (config : RawPMUConfig) (type : PmuType) :
    ∃ pass, ProgramsUnit model readback config type pass ∧
      (u.programType model readback config type).2 = (u.walked model type).flatMap pass := by
  cases type with
  | xpi => exact ⟨_, programsUnit_link config, List.flatMap_assoc.symm⟩
  | m3upi | imc | ha | m2m =>
      exact ⟨_, programsUnit_box fun _ => rfl, List.flatMap_assoc.symm⟩
  | pciex8 => exact ⟨_, programsUnit_pcie (Or.inl rfl), rfl⟩
  | pciex16 => exact ⟨_, programsUnit_pcie (Or.inr rfl), rfl⟩
  | pcu | ubox | cbo | mdf | irp | iio | cxlcm | cxldp =>
      exact ⟨_, programsUnit_box fun _ => rfl, rfl⟩

/-- The counters of a unit after the routine for some type. -/
theorem last_programType {u : UncoreUnits} {type : PmuType} {pmu : UncorePMU}
    (only : u.Only (.named type) pmu) (config : RawPMUConfig) (type' : PmuType) (i : Nat) :
    last (u.programType model readback config type').2 (pmu.register (.counterControl i)) =
      if type' = type ∧ reached u model readback type pmu i ∧ i < type.limit config then
        some (model.controlValue (type.array config i)) else none := by
  obtain ⟨pass, programs, log⟩ := programType_log model readback u config type'
  rw [log]
  by_cases here : pmu ∈ u.walked model type'
  · obtain ⟨kind, -⟩ := only (.named type') pmu (u.walked_subset model type' here) rfl
    obtain rfl := UnitKind.named.inj kind
    have alone : ∀ other ∈ u.walked model type', other.id = pmu.id → other = pmu :=
      fun other mem same => (only (.named type') other (u.walked_subset model type' mem) same).2
    rw [last_flatMap_unit programs.owned here alone, programs.counter]
    simp [reached, here]
  · rw [last_flatMap_other programs.owned, if_neg]
    · rintro ⟨rfl, reach, -⟩
      simp [reached, here] at reach
    · intro other mem same
      obtain ⟨kind, rfl⟩ := only (.named type') other (u.walked_subset model type' mem) same
      exact here mem

/-! ## What a configuration writes -/

/-- No list but that of the links changes, and there only links that nothing can be written to. -/
theorem reached_programType (u : UncoreUnits) (config : RawPMUConfig) (type' type : PmuType)
    (pmu : UncorePMU) (i : Nat) :
    reached (u.programType model readback config type').1 model readback type pmu i =
      reached u model readback type pmu i := by
  by_cases links : type' = .xpi
  · subst links
    by_cases link : type = .xpi
    · subst link
      have mem : pmu ∈ (u.programType model readback config .xpi).1.walked model .xpi ↔
          pmu ∈ u.walked model .xpi ∧ linkDisabled model readback pmu = false :=
        u.mem_links_programXPI
      rw [Bool.eq_iff_iff]
      simp only [reached, Bool.and_eq_true, decide_eq_true_eq, mem, PmuType.enabled]
      constructor
      · rintro ⟨⟨⟨here, -⟩, enabled⟩, control⟩
        exact ⟨⟨here, enabled⟩, control⟩
      · rintro ⟨⟨here, enabled⟩, control⟩
        exact ⟨⟨⟨here, by simpa using enabled⟩, enabled⟩, control⟩
    · have same : (u.programType model readback config .xpi).1.walked model type =
          u.walked model type := u.walked_updateXPI _ model link
      rw [reached, same, reached]
  · have same : (u.programType model readback config type').1 = u := by
      cases type' with
      | xpi => exact absurd rfl links
      | _ => rfl
    rw [same]

theorem only_programType {u : UncoreUnits} {type : PmuType} {pmu : UncorePMU}
    (only : u.Only (.named type) pmu) (config : RawPMUConfig) (type' : PmuType) :
    (u.programType model readback config type').1.Only (.named type) pmu := by
  cases type' with
  | xpi => exact only.dropLinks _ (programXPI_subset model readback _)
  | _ => exact only

/-- A counter within reach holds the last word that was delivered for it. -/
theorem last_programEntries {u : UncoreUnits} {type : PmuType} {pmu : UncorePMU}
    (only : u.Only (.named type) pmu) {entries : List (String × RawPMUConfig)} (i : Nat)
    (ok : (UncoreUnits.programEntries model readback entries u).1) :
    last (UncoreUnits.programEntries model readback entries u).2.2
        (pmu.register (.counterControl i)) =
      if reached u model readback type pmu i then
        (deliveries type i entries).getLast?.map model.controlValue else none := by
  induction entries generalizing u with
  | nil => simp [UncoreUnits.programEntries, deliveries]
  | cons entry entries ih =>
      unfold UncoreUnits.programEntries at ok ⊢
      cases action : entryAction entry with
      | skip | register =>
          simp only [action] at ok ⊢
          rw [ih only ok]
          simp [deliveries, action]
      | reject => simp [action] at ok
      | program type' =>
          simp only [action] at ok ⊢
          rw [last_append, ih (only_programType only entry.2 type') ok, last_programType only,
            reached_programType]
          by_cases here : type' = type ∧ i < type.limit entry.2
          · obtain ⟨rfl, inside⟩ := here
            have more : deliveries type' i (entry :: entries) =
                type'.array entry.2 i :: deliveries type' i entries := by
              simp [deliveries, action, inside]
            rw [more, List.getLast?_cons]
            cases reached u model readback type' pmu i with
            | false => simp
            | true =>
                cases (deliveries type' i entries).getLast? with
                | none => simp [inside]
                | some word => simp
          · have same : deliveries type i (entry :: entries) = deliveries type i entries := by
              simp only [deliveries, List.filterMap_cons, action]
              rw [if_neg]
              rintro ⟨h, inside⟩
              exact here ⟨EntryAction.program.inj h, inside⟩
            have nothing : ¬ (type' = type ∧ reached u model readback type pmu i = true ∧
                i < type.limit entry.2) := fun h => here ⟨h.1, h.2.2⟩
            rw [same, if_neg nothing, Option.or_none]

/-! ## Accepted configurations -/

/-- Every event of every entry is in its counter, on every unit of the type. -/
def Programmed (model : CpuModel) (u : UncoreUnits) (configs : RawPMUConfigs) (log : Log) : Prop :=
  ∀ entry ∈ configs.uncoreEntries, ∀ type, pmuTypeOf entry.1 = some type →
    ∀ pmu ∈ u.named type, ∀ i event, entry.2.programmable[i]? = some event →
      pmu.has (.counterControl i) ∧
        last log (pmu.register (.counterControl i)) =
          some (model.controlValue (event.encoding.get 0))

/-- The counter is within reach, and the last word that is delivered for it is the event. -/
def Delivered (model : CpuModel) (readback : Nat → BitVec 64) (u : UncoreUnits)
    (configs : RawPMUConfigs) (type : PmuType) (pmu : UncorePMU) (i : Nat) (event : BitVec 64) :
    Prop :=
  reached u model readback type pmu i ∧
    ∃ word, (deliveries type i configs.uncoreEntries).getLast? = some word ∧
      model.controlValue word = model.controlValue event

theorem programmed_iff_delivered {u : UncoreUnits} {configs : RawPMUConfigs} {type : PmuType}
    {pmu : UncorePMU} (mem : pmu ∈ u.named type) (i : Nat) (event : BitVec 64)
    (ok : (UncoreUnits.programEntries model readback configs.uncoreEntries u).1) :
    pmu.has (.counterControl i) ∧
        last (UncoreUnits.programEntries model readback configs.uncoreEntries u).2.2
          (pmu.register (.counterControl i)) = some (model.controlValue event) ↔
      Delivered model readback u configs type pmu i event := by
  have only : u.Only (.named type) pmu := UncoreUnits.only_of_mem (.named type) mem
  rw [last_programEntries only i ok, Delivered]
  cases reach : reached u model readback type pmu i with
  | false => simp
  | true =>
      have control : pmu.has (.counterControl i) = true := by
        simp only [reached, Bool.and_eq_true] at reach
        exact reach.2
      simp [control]

/-- An accepted configuration is programmed completely exactly if each of its events is delivered. -/
theorem accepted_programmed_iff (inst : Instance) (configs : RawPMUConfigs) (call : Call)
    (readback : Nat → BitVec 64) (core : CoreState) (u : UncoreUnits)
    (accepted : (programRawConfigs inst configs call readback core u).status = .success) :
    Programmed inst.cpuFamilyModel u configs
        (programRawConfigs inst configs call readback core u).log ↔
      ∀ entry ∈ configs.uncoreEntries, ∀ type, pmuTypeOf entry.1 = some type →
        ∀ pmu ∈ u.named type, ∀ i event, entry.2.programmable[i]? = some event →
          Delivered inst.cpuFamilyModel readback u configs type pmu i (event.encoding.get 0) := by
  unfold programRawConfigs at accepted ⊢
  by_cases first : (core.programRaw inst configs call).1 = .success
  · simp only [first, if_true] at accepted ⊢
    have ok : (UncoreUnits.programEntries inst.cpuFamilyModel readback configs.uncoreEntries
        u).1 := by
      by_contra failed
      simp [failed] at accepted
    unfold Programmed
    refine forall₂_congr fun entry _ => forall₂_congr fun type _ => forall₂_congr fun pmu mem => ?_
    exact forall₃_congr fun i event _ => programmed_iff_delivered mem i (event.encoding.get 0) ok
  · simp only [first, if_false] at accepted

/-- The types whose events are cut to 32 bits. -/
def PmuType.isNarrow : PmuType → Bool
  | .m3upi | .xpi | .imc | .ha | .pcu => true
  | _ => false

/-- The enable bit does not hide a cut: it is one of the lower 32. -/
theorem controlValue_cut (model : CpuModel) (event : BitVec 64) :
    model.controlValue ((event.setWidth 32).setWidth 64) = model.controlValue event ↔
      (event.setWidth 32).setWidth 64 = event := by
  constructor
  · intro same
    unfold CpuModel.controlValue at same
    split at same
    · exact same
    · apply BitVec.eq_of_getLsbD_eq
      intro i bound
      have bit := congrArg (·.getLsbD i) same
      by_cases low : i < 32
      · simp [low, bound]
      · have enable : MC_CH_PCI_PMON_CTL_EN.getLsbD i = false := by
          rw [MC_CH_PCI_PMON_CTL_EN, BitVec.getLsbD_shiftLeft, BitVec.getLsbD_one]
          simp
          omega
        simpa [enable] using bit
  · intro same
    rw [same]

theorem registers_map {l : List RawEventConfig} {i : Nat} {event : RawEventConfig}
    (here : l[i]? = some event) (f : RawEventConfig → BitVec 64) :
    registers (l.map f) i = f event := by
  rw [registers, List.getD_eq_getElem?_getD, List.getElem?_map, here]
  rfl

theorem array_eq {config : RawPMUConfig} {i : Nat} {event : RawEventConfig} (type : PmuType)
    (here : config.programmable[i]? = some event) (bound : i < 8) :
    type.array config i = if type.isNarrow then ((event.encoding.get 0).setWidth 32).setWidth 64
      else event.encoding.get 0 := by
  have taken : (config.programmable.take 8)[i]? = some event := by
    rw [List.getElem?_take_of_lt bound, here]
  cases type with
  | m3upi | xpi | imc | ha | pcu => exact registers_map taken _
  | _ => exact registers_map taken _

/-- Where no other entry has the same type, an event is delivered if the routine takes so many and
none of its bits are cut. -/
theorem delivered_iff_of_alone {u : UncoreUnits} {configs : RawPMUConfigs} {type : PmuType}
    {pmu : UncorePMU} {entry : String × RawPMUConfig} {i : Nat} {event : RawEventConfig}
    (mem : entry ∈ configs.uncoreEntries) (action : entryAction entry = .program type)
    (alone : ∀ other ∈ configs.uncoreEntries, entryAction other = .program type → other = entry)
    (here : entry.2.programmable[i]? = some event) :
    Delivered model readback u configs type pmu i (event.encoding.get 0) ↔
      reached u model readback type pmu i ∧ i < type.limit entry.2 ∧
        (type.isNarrow → ((event.encoding.get 0).setWidth 32).setWidth 64 = event.encoding.get 0) := by
  have words : ∀ word ∈ deliveries type i configs.uncoreEntries, i < type.limit entry.2 ∧
      word = type.array entry.2 i := by
    intro word delivered
    obtain ⟨other, otherMem, h⟩ := List.mem_filterMap.mp delivered
    split at h
    · next inside =>
      obtain rfl := alone other otherMem inside.1
      exact ⟨inside.2, (Option.some.inj h).symm⟩
    · simp at h
  have limit : type.limit entry.2 ≤ 8 := by
    cases type <;> simp [PmuType.limit]
  unfold Delivered
  rw [and_congr_right_iff]
  intro _
  constructor
  · rintro ⟨word, last, same⟩
    obtain ⟨inside, rfl⟩ := words word (List.mem_of_getLast? last)
    refine ⟨inside, fun narrow => ?_⟩
    rw [array_eq type here (by omega), if_pos narrow, controlValue_cut] at same
    exact same
  · rintro ⟨inside, fits⟩
    have delivered : type.array entry.2 i ∈ deliveries type i configs.uncoreEntries :=
      List.mem_filterMap.mpr ⟨entry, mem, by rw [if_pos ⟨action, inside⟩]⟩
    have last := List.getLast?_eq_some_getLast (List.ne_nil_of_mem delivered)
    refine ⟨_, last, ?_⟩
    rw [(words _ (List.mem_of_getLast? last)).2, array_eq type here (by omega)]
    split
    · next narrow => rw [fits narrow]
    · rfl

/-- A socket with one memory channel. -/
def oneChannel : UncoreUnits where
  serverUncorePMUs := [{ imcPMUs := [{ id := 0, fixedCounterControl := true }] }]
  distinct := by
    have kinds : ∀ kind, ∀ pmu ∈ ({ serverUncorePMUs := [{ imcPMUs :=
        [{ id := 0, fixedCounterControl := true }] }] } : UnitLists).units kind,
        kind = .named .imc ∧ pmu = { id := 0, fixedCounterControl := true } := by
      intro kind pmu mem
      cases kind with
      | named type => cases type <;> simp_all [UnitLists.units, UnitLists.named]
      | _ => simp_all [UnitLists.units]
    intro kind kind' a ha b hb _
    obtain ⟨rfl, rfl⟩ := kinds kind a ha
    obtain ⟨rfl, rfl⟩ := kinds kind' b hb
    exact ⟨rfl, rfl⟩
  links := by simp [UnitLists.named]

/-- Events for memory channels, with raw codes as given. -/
def imcConfigs (codes : List (BitVec 64)) : RawPMUConfigs where
  entries := [("imc", { programmable := codes.map fun code => ⟨#v[code, 0, 0, 0, 0, 0], ""⟩ })]
  sorted := by simp

def icelakeServer : Instance where
  cpuFamilyModel := .ICX
  coreGenCounterNumMax := 8
  cores := []

/-- A socket with two memory channels. -/
def twoChannels : UncoreUnits where
  serverUncorePMUs := [{ imcPMUs := [{ id := 0, fixedCounterControl := true }, { id := 1 }] }]
  distinct := by
    have kinds : ∀ kind, ∀ pmu ∈ ({ serverUncorePMUs := [{ imcPMUs :=
        [{ id := 0, fixedCounterControl := true }, { id := 1 }] }] } : UnitLists).units kind,
        kind = .named .imc ∧ (pmu = { id := 0, fixedCounterControl := true } ∨ pmu = { id := 1 }) := by
      intro kind pmu mem
      cases kind with
      | named type => cases type <;> simp_all [UnitLists.units, UnitLists.named]
      | _ => simp_all [UnitLists.units]
    intro kind kind' a ha b hb same
    obtain ⟨rfl, first⟩ := kinds kind a ha
    obtain ⟨rfl, second⟩ := kinds kind' b hb
    rcases first with rfl | rfl <;> rcases second with rfl | rfl <;> simp_all
  links := by simp [UnitLists.named]

/-- Four events of 32 bits for the memory channels are all in their counters. -/
theorem accepted_programmed_iff_four_events :
    Programmed .ICX twoChannels (imcConfigs [0x304, 0xC04, 0x101, 0x102])
      (programRawConfigs icelakeServer (imcConfigs [0x304, 0xC04, 0x101, 0x102])
        { request := .defaultEvents false } (fun _ => 0) { nmiWatchdog := none } twoChannels).log := by
  refine (accepted_programmed_iff icelakeServer (imcConfigs [0x304, 0xC04, 0x101, 0x102])
    { request := .defaultEvents false } (fun _ => 0) { nmiWatchdog := none } twoChannels (by decide)).mpr ?_
  intro entry mem type kind pmu unit i event here
  obtain rfl := List.mem_singleton.mp mem
  obtain rfl : PmuType.imc = type := Option.some.inj kind
  have alone : ∀ other ∈ (imcConfigs [0x304, 0xC04, 0x101, 0x102]).uncoreEntries,
      entryAction other = .program .imc → other = _ := fun other member _ => List.mem_singleton.mp member
  refine (delivered_iff_of_alone mem rfl alone here).mpr ?_
  have inside : i < 4 := (List.getElem?_eq_some_iff.mp here).1
  have controls : ∀ channel ∈ twoChannels.named .imc, ∀ i < 4, channel.has (.counterControl i) = true := by decide
  refine ⟨?_, inside, fun _ => ?_⟩
  · have walked : pmu ∈ twoChannels.walked icelakeServer.cpuFamilyModel .imc := unit
    simpa [reached, PmuType.enabled, controls pmu unit i inside] using walked
  · obtain rfl | rfl | rfl | rfl : i = 0 ∨ i = 1 ∨ i = 2 ∨ i = 3 := by omega
    all_goals
      cases here
      rfl

/-- Five events for a memory channel are accepted, and the fifth is dropped. -/
theorem fifth_imc_event_dropped :
    ¬ ∀ (inst : Instance) (configs : RawPMUConfigs) (call : Call) (readback : Nat → BitVec 64)
        (core : CoreState) (u : UncoreUnits),
        (programRawConfigs inst configs call readback core u).status = .success →
        Programmed inst.cpuFamilyModel u configs
          (programRawConfigs inst configs call readback core u).log := by
  intro all
  have programmed := all icelakeServer (imcConfigs [0x304, 0xC04, 0x101, 0x102, 0x103])
    { request := .defaultEvents false } (fun _ => 0) { nmiWatchdog := none } oneChannel (by decide)
  have fifth := programmed ("imc", _) (List.mem_singleton_self _) .imc rfl
    { id := 0, fixedCounterControl := true } (List.mem_singleton_self _) 4 _ rfl
  exact absurd fifth.1 (by decide)

end Pcm
