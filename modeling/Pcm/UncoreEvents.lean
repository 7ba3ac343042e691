import Pcm.RawProgram

/-!
# Built-in uncore events

The events with which `program`, `programServerUncoreMemoryMetrics` and
`programServerUncorePowerMetrics` program the uncore (`cpucounters.cpp:4112-4155`, `4592-4790`,
`5943-6132`, `9373-9606`, `9818-9892`, `9938-10043`, `11012-11032`, `11236-11305`), and the units they
program them on. The tables depend on the CPU model; the environment of a call is what the hardware
answers when registers are read.
-/

namespace Pcm

open Uncore

/-- An instance on a server: what the choice of events depends on besides the model. -/
structure Server extends Instance where
  stepping : Nat := 0
  numSockets : Nat := 1

/-- What a call reads: the unit control registers of links after they were written, and the event
select registers of an old uncore before. -/
structure Readings where
  readback : Nat → BitVec 64
  previous : Register → BitVec 64 := fun _ => 0

/-- The event and umask fields that all control registers share. -/
def pmonEvent (event : BitVec 64) (umask : BitVec 64 := 0) : BitVec 64 := event + umask <<< 8

def umaskExt (umask : BitVec 64) : BitVec 64 := umask <<< 32

/-! ## Tables -/

/-- The events of `ServerUncorePMUs::program` for memory channels, before those for PMM. -/
def mcDefaults : CpuModel → List (BitVec 64)
  | .KNL => [pmonEvent 0x03 1, pmonEvent 0x03 2, 0, 0]
  | .SNOWRIDGE | .ICX => [pmonEvent 0x04 0x0f, pmonEvent 0x04 0x30, 0, 0]
  | .SPR | .EMR => [pmonEvent 0x05 0xcf, pmonEvent 0x05 0xf0, 0, 0]
  | .GNR | .GNR_D | .GRR | .SRF =>
      [pmonEvent 0x05 0xcf, pmonEvent 0x05 0xf0, pmonEvent 0x06 0xcf, pmonEvent 0x06 0xf0]
  | _ => [pmonEvent 0x04 3, pmonEvent 0x04 12, 0, 0]

def edcDefaults : CpuModel → List (BitVec 64)
  | .KNL => [pmonEvent 0x01 1, pmonEvent 0x02 1, 0, 0]
  | .SPR | .EMR => [pmonEvent 0x05 0xcf, pmonEvent 0x05 0xf0, 0, 0]
  | _ => [0, 0, 0, 0]

/-- `programM2M` without arguments. -/
def m2mDefaults : CpuModel → List (BitVec 64)
  | .SPR | .EMR => [0, pmonEvent 0x01, pmonEvent 0x24 0x20 + umaskExt 0x03,
      pmonEvent 0x25 0x80 + umaskExt 0x18]
  | .ICX => [pmonEvent 0x2c 3, 0, pmonEvent 0x37 0x20 + umaskExt 0x07,
      pmonEvent 0x38 0x80 + umaskExt 0x1C]
  | .GNR | .GNR_D | .SRF => [pmonEvent 0x1F 0x0F, 0, pmonEvent 0x4B 0x05, pmonEvent 0x4B 0x0A]
  | _ => [pmonEvent 0x2c 3, 0, pmonEvent 0x37 0x8, pmonEvent 0x38 0x20]

def xpiDefaults (model : CpuModel) : List (BitVec 64) :=
  if model.hasUPI then
    [pmonEvent 0x26, pmonEvent 0x03 0xF, pmonEvent 0x02 (0x97 ||| 0x0F), pmonEvent 0x01]
  else
    [pmonEvent 0x02 8 + 1#64 <<< 21, pmonEvent 0x03 4 + 1#64 <<< 21, pmonEvent 0x00 6,
      pmonEvent 0x14]

/-- `programHA` without arguments. -/
def haDefaults : List (BitVec 64) := [0, 0, pmonEvent 0x01 0xF, pmonEvent 0x01 5]

/-- `initLLCReadMissLatencyEvents` and `initCHARequestEvents`: the events and the opcode. -/
def cboDefaults (server : Server) : List (BitVec 64) × BitVec 32 :=
  let model := server.cpuFamilyModel
  let umask : BitVec 64 := match model with
    | .ICX | .SPR | .SNOWRIDGE => 1
    | .SKX => 1#64 <<< 0 + 1#64 <<< 5
    | _ => 3
  let umask_ext : BitVec 64 := match model with
    | .ICX | .SPR => 0xC817FE
    | .SNOWRIDGE => 0xC827FE
    | _ => 0
  let latency := model.llcReadMissLatencyMetricsAvailable server.stepping server.numSockets
  let tor := if latency then
    [pmonEvent 0x36 umask + umaskExt umask_ext, pmonEvent 0x35 umask + umaskExt umask_ext] else [0, 0]
  let requests := if model.localMemoryRequestRatioMetricAvailable && model.hasCHA then
    [pmonEvent 0x50 0xF, pmonEvent 0x50 5] else [0, 0]
  (tor ++ requests, if latency then if model = .SKX then 0x202 else 0x182 else 0)

inductive MemoryMetrics
  | PartialWrites
  | Pmem
  | PmemMemoryMode
  | PmemMixedMode
  | unknown
  deriving DecidableEq, Repr

/-- `setEvents2_3`. -/
def memoryEvents2_3 (pmm : Bool) (partialWriteEvent : BitVec 64) :
    MemoryMetrics → Option (List (BitVec 64))
  | .PmemMemoryMode | .PmemMixedMode =>
      if pmm then some [pmonEvent 0xd3 2, pmonEvent 0xd3 4] else none
  | .Pmem => if pmm then some [pmonEvent 0xe3, pmonEvent 0xe7] else none
  | .PartialWrites => some [partialWriteEvent, 0]
  | .unknown => none

/-- The events of the two ranks. -/
def rankEvents (rankA rankB : Int) (umask : BitVec 64) : List (BitVec 64) :=
  let rank := fun r => [pmonEvent (0xb0 + BitVec.ofInt 64 r) umask,
    pmonEvent (0xb8 + BitVec.ofInt 64 r) umask]
  rank rankA ++ if 0 ≤ rankB ∧ rankB ≤ 7 then rank rankB else [0, 0]

/-- The events of `programServerUncoreMemoryMetrics` for memory and HBM channels; `none` where it
returns early. -/
def memoryEvents (server : Server) (metrics : MemoryMetrics) (rankA rankB : Int) :
    Option (List (BitVec 64) × List (BitVec 64)) :=
  let model := server.cpuFamilyModel
  let events2_3 := memoryEvents2_3 (model.pmmTrafficMetricsAvailable server.stepping)
  if metrics = .unknown then none
  else if rankA < 0 ∧ rankB < 0 then
    match model with
    | .KNL => some (mcDefaults model, edcDefaults model)
    | .SNOWRIDGE | .ICX =>
        let events0_1 := if metrics = .PmemMemoryMode then [pmonEvent 0xd3 1, 0]
          else [pmonEvent 0x04 0x0f, pmonEvent 0x04 0x30]
        (events2_3 (pmonEvent 0x04 0x0c) metrics).map fun more => (events0_1 ++ more, edcDefaults model)
    | .SPR | .EMR =>
        (events2_3 (pmonEvent 0x05 0xcc) metrics).map fun more =>
          ([pmonEvent 0x05 0xcf, pmonEvent 0x05 0xf0] ++ more, edcDefaults model)
    | .GNR | .GNR_D | .GRR | .SRF =>
        if metrics = .PmemMemoryMode then none else some (mcDefaults model, edcDefaults model)
    | _ =>
        (events2_3 (pmonEvent 0x04 2) metrics).map fun more =>
          ([pmonEvent 0x04 3, pmonEvent 0x04 12] ++ more, edcDefaults model)
  else if rankA < 0 ∨ 7 < rankA then none
  else match model with
    | .IVYTOWN => some (rankEvents rankA rankB 0xff, edcDefaults model)
    | .HASWELLX | .BDX_DE | .BDX | .SKX => some (rankEvents rankA rankB 16, edcDefaults model)
    | .KNL => some (mcDefaults model, edcDefaults model)
    | _ => none

/-- The events of `program_power_metrics` for links. -/
def xpiPowerEvents (model : CpuModel) : List (BitVec 64) :=
  if model.hasUPI then [pmonEvent 0x27, 0, pmonEvent 0x21, pmonEvent 0x01]
  else [pmonEvent 0x0D, 0, pmonEvent 0x12, pmonEvent 0x14]

/-- The events of `program_power_metrics` for memory channels. -/
def mcPowerEvents (model : CpuModel) (mc_profile : Int) : List (BitVec 64) :=
  let cke : BitVec 64 := match model with
    | .ICX | .SNOWRIDGE | .SPR | .EMR | .SRF | .GNR | .GNR_D => 0x47
    | _ => 0x83
  let ppd : BitVec 64 := match model with
    | .SRF | .GNR | .GNR_D => 0x88
    | _ => 0x85
  let refresh : BitVec 64 := match model with
    | .SRF | .GNR | .GNR_D => 0x01
    | _ => 0
  let edge := 1#64 <<< 18
  let invert := 1#64 <<< 23
  let thresh := 1#64 <<< 24
  let rank := fun umask =>
    [pmonEvent cke umask + invert + thresh, pmonEvent cke umask + thresh + edge]
  if mc_profile = 0 then rank 1 ++ rank 2
  else if mc_profile = 1 then rank 4 ++ rank 8
  else if mc_profile = 2 then rank 0x10 ++ rank 0x20
  else if mc_profile = 3 then rank 0x40 ++ rank 0x80
  else if mc_profile = 4 then
    [pmonEvent 0x43 refresh, pmonEvent 0x43 refresh + thresh + edge, pmonEvent ppd, 0]
  else [0, 0, 0, 0]

/-- The events of `programServerUncorePowerMetrics` for the power control unit. -/
def pcuPowerEvents (model : CpuModel) (pcu_profile : Int) : List (BitVec 64) :=
  let recent := match model with
    | .SPR | .EMR | .SRF | .GNR | .GNR_D => true
    | _ => false
  let clock : BitVec 64 := if recent then 1 else 0
  let edge := 1#64 <<< 18
  let extraSel := 1#64 <<< 21
  let occSel := fun (x : BitVec 64) => x <<< 14
  let transitions := match model with
    | .HASWELLX | .BDX_DE | .BDX | .SKX | .ICX | .SNOWRIDGE => true
    | _ => recent
  let ufs := match model with
    | .HASWELLX | .BDX_DE | .BDX => true
    | _ => false
  if pcu_profile = 0 then [clock, 0xB, 0xC, 0xD]
  else if pcu_profile = 1 then
    if recent then [clock, 0x35, 0x36, 0x37]
    else [clock, 0x80 + occSel 1, 0x80 + occSel 2, 0x80 + occSel 3]
  else if pcu_profile = 2 then [clock, 0x09, 0x0A, 0x04]
  else if pcu_profile = 3 then [clock, 0x04, 0x05, 0x07]
  else if pcu_profile = 4 then [clock, 0x06, 0x05, 0x07]
  else if pcu_profile = 5 then
    if model = .JAKETOWN then [clock, 0 + extraSel + edge, 0 + extraSel, 0]
    else if model = .IVYTOWN then [clock, 0x60 + edge, 0x60, 0]
    else if model = .HASWELLX then [0x79, 0x74 + edge, 0x74, 0x79 + edge]
    else if transitions then [clock, 0x74 + edge, 0x74, 0]
    else [clock, 0, 0, 0]
  else if pcu_profile = 6 then
    if model = .IVYTOWN then [clock, 0, 0x2B + edge, 0x2D + edge]
    else if transitions then [0x4E, 0x4E + edge, 0x2B + edge, 0x2D + edge]
    else [clock, 0, 0, 0]
  else if pcu_profile = 7 then if ufs then [0x7E, 0x7D, 0x7A, 0x7B] else [clock, 0, 0, 0]
  else if pcu_profile = 8 then if ufs then [0x7C, 0, 0, 0] else [clock, 0, 0, 0]
  else [clock, 0, 0, 0]

/-- The filter of the power control unit, the sum of three `int` fields. -/
def pcuFilter (freq_bands : Option (BitVec 32 × BitVec 32 × BitVec 32)) : BitVec 64 :=
  let bands := freq_bands.getD (10, 20, 30)
  (bands.1 <<< 0 + bands.2.1 <<< 8 + bands.2.2 <<< 16).signExtend 64

/-- `programCXLCM` without arguments. -/
def cxlcmDefaults : List (BitVec 64) :=
  [pmonEvent 0x02 0x10, pmonEvent 0x02 0x04, 0, 0, pmonEvent 0x41 0x10, pmonEvent 0x41 0x04, 0, 0]

/-- `programCXLDP` without arguments. -/
def cxldpDefaults : List (BitVec 64) := [pmonEvent 0x02 0x20, 0, 0, 0]

/-! ## Old uncores -/

/-- The events of `programNehalemEPUncore`, event numbers and umasks. -/
def nehalemEvents : List (BitVec 64 × BitVec 64) :=
  [(0x2F, 0x07), (0x2C, 0x07), (0x20, 0x01), (0x20, 0x02), (0x20, 0x04), (0x20, 0x08), (0x20, 0x10),
    (0x20, 0x20)]

/-- The fields of an `UncoreEventSelectRegister` that are set; the reserved bits keep their values. -/
def nehalemSelect (previous event umask : BitVec 64) : BitVec 64 :=
  (previous &&& ~~~0xFFD6FFFF#64) ||| pmonEvent event umask ||| 1#64 <<< 17 ||| 1#64 <<< 22

/-- `programNehalemEPUncore` (`cpucounters.cpp:4592-4679`). -/
def programNehalemEPUncore (previous : Register → BitVec 64) (pmu : UncorePMU) : Log :=
  ((List.range 8).flatMap fun c => pmu.assign (.counterControl c)
    (nehalemSelect (previous (pmu.register (.counterControl c))) (nehalemEvents.getD c (0, 0)).1
      (nehalemEvents.getD c (0, 0)).2)) ++
    pmu.assign .unitControl (255 + 1#64 <<< 32) ++
    (List.range 8).flatMap fun c => pmu.assign (.counterValue c) 0

/-- `programBecktonUncore` (`cpucounters.cpp:4681-4790`): the counters of the M, B and R boxes. -/
def programBecktonUncore (b : BecktonPMUs) : Log :=
  let cntctl := fun (inc_sel : BitVec 64) => 1#64 <<< 0 + 1#64 <<< 6 + inc_sel <<< 9
  let rSelect := fun (line : BitVec 64) => 1 + 2 * line
  b.mb0.assign (.counterControl 0) (cntctl 0x0d) ++ b.mb1.assign (.counterControl 0) (cntctl 0x0d) ++
    b.mb0.assign (.counterControl 1) (cntctl 0x0e) ++ b.mb1.assign (.counterControl 1) (cntctl 0x0e) ++
    b.bb0.assign (.counterControl 1) (1 + 0x0C#64 <<< 1) ++
    b.bb1.assign (.counterControl 1) (1 + 0x0C#64 <<< 1) ++
    b.mb0.assign .unitControl 3 ++ b.mb1.assign .unitControl 3 ++
    b.bb0.assign .unitControl 2 ++ b.bb1.assign .unitControl 2 ++
    b.rLeft.assign .unitControl 255 ++ b.rRight.assign .unitControl 255 ++
    b.rLeft.assign (.counterControl 0) (rSelect 0) ++ b.rLeft.assign (.counterControl 1) (rSelect 6) ++
    b.rRight.assign (.counterControl 8) (rSelect 0) ++ b.rRight.assign (.counterControl 9) (rSelect 6) ++
    b.rLeft.assign (.counterControl 2) (rSelect 1) ++ b.rLeft.assign (.counterControl 3) (rSelect 7) ++
    b.rRight.assign (.counterControl 10) (rSelect 1) ++ b.rRight.assign (.counterControl 11) (rSelect 7)

/-! ## Units -/

namespace UncoreUnits

variable (server : Server) (u : UncoreUnits)

/-- `HBMmemoryTrafficMetricsAvailable`. -/
def hbmAvailable : Bool :=
  match u.serverUncorePMUs with
  | s :: _ => !s.edcPMUs.isEmpty
  | [] => false

/-- What `program` and `programServerUncoreMemoryMetrics` of a socket have in common. -/
def programChannels (mc edc : List (BitVec 64)) (s : ServerUncorePMUs) : Log :=
  programIMC server.cpuFamilyModel (some (registers mc)) s.imcPMUs ++
    (if u.hbmAvailable then programEDC server.cpuFamilyModel (some (registers edc)) s.edcPMUs
      else []) ++
    programM2M server.cpuFamilyModel (some (registers (m2mDefaults server.cpuFamilyModel))) s.m2mPMUs

/-- The lists after `programXPI` on every socket. -/
def afterXPI (readback : Nat → BitVec 64) (events : List (BitVec 64)) : UncoreUnits :=
  (u.programXPI server.cpuFamilyModel readback (some (registers events))).1

/-- `ServerUncorePMUs::program` on every socket (`cpucounters.cpp:9532-9605`). -/
def programServers (readback : Nat → BitVec 64) : UncoreUnits × Log :=
  let model := server.cpuFamilyModel
  let mc := if model.pmmTrafficMetricsAvailable server.stepping then
    (mcDefaults model).take 2 ++ [pmonEvent 0xe3, pmonEvent 0xe7] else mcDefaults model
  (u.afterXPI server readback (xpiDefaults model),
    u.serverUncorePMUs.flatMap fun s =>
      u.programChannels server mc (edcDefaults model) s ++
        (Uncore.programXPI model readback (some (registers (xpiDefaults model))) s.xpiPMUs).2 ++
        programHA model (some (registers haDefaults)) s.haPMUs)

/-- `programCbo` without arguments (`cpucounters.cpp:11276-11288`). -/
def programDefaultCbo : Log :=
  let cbo := programCbo server.cpuFamilyModel (some (registers (cboDefaults server).1))
    (cboDefaults server).2 0 0 1 1 (u.uncorePMUs .CBO_PMU_ID)
  cbo.log ++ if cbo.returns then programUBOX server.cpuFamilyModel none (u.uncorePMUs .UBOX_PMU_ID)
    else []

/-- The uncore part of `program(mode, parameter)` (`cpucounters.cpp:4117-4153`). -/
def programUncore (readings : Readings) : UncoreUnits × Log :=
  if server.cpuFamilyModel.hasPCICFGUncore then
    let servers := u.programServers server readings.readback
    (servers.1, servers.2 ++ u.programDefaultCbo server)
  else match server.cpuFamilyModel with
    | .NEHALEM_EP | .WESTMERE_EP | .CLARKDALE =>
        (u, u.nehalemPMUs.flatMap (programNehalemEPUncore readings.previous))
    | .NEHALEM_EX | .WESTMERE_EX => (u, u.becktonPMUs.flatMap programBecktonUncore)
    | _ => (u, [])

/-- `programServerUncoreMemoryMetrics` (`cpucounters.cpp:5943-5955`, `9373-9530`) with access to the
hardware. It clears the lists of links. -/
def programMemoryMetrics (metrics : MemoryMetrics) (rankA rankB : Int) : UncoreUnits × Log :=
  let model := server.cpuFamilyModel
  let servers : UncoreUnits × Log := match memoryEvents server metrics rankA rankB with
    | none => (u, [])
    | some (mc, edc) => (u.dropLinks (fun _ => []) (by simp),
        u.serverUncorePMUs.flatMap (u.programChannels server mc edc))
  (servers.1, servers.2 ++
    programCXLCM model (some (registers cxlcmDefaults)) (u.cxlPMUs.map Prod.fst) ++
    programCXLDP model (some (registers cxldpDefaults)) (u.cxlPMUs.map Prod.snd))

/-- `programServerUncorePowerMetrics` (`cpucounters.cpp:5957-6132`, `9818-9892`) with access to the
hardware. -/
def programPowerMetrics (readback : Nat → BitVec 64) (mc_profile pcu_profile : Int)
    (freq_bands : Option (BitVec 32 × BitVec 32 × BitVec 32)) : UncoreUnits × Log :=
  let model := server.cpuFamilyModel
  (u.afterXPI server readback (xpiPowerEvents model),
    (u.serverUncorePMUs.flatMap fun s =>
      (Uncore.programXPI model readback (some (registers (xpiPowerEvents model))) s.xpiPMUs).2 ++
        programIMC model (some (registers (mcPowerEvents model mc_profile))) s.imcPMUs) ++
      programPCU model (some (registers (pcuPowerEvents model pcu_profile)))
        (u.uncorePMUs .PCU_PMU_ID) (pcuFilter freq_bands))

end UncoreUnits

end Pcm
