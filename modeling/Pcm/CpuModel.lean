import Mathlib.Logic.Basic

/-!
# Supported CPU models

The enumeration `SupportedCPUModels` (`cpucounters.h:1951-2016`) and the predicates on it by which
PCM selects counters, events and code paths (`cpucounters.h:1296-1309`, `2544-2958`).
-/

namespace Pcm

/-- `SupportedCPUModels`. -/
inductive CpuModel
  | NEHALEM_EP | NEHALEM | ATOM | ATOM_2 | CENTERTON | BAYTRAIL | AVOTON | CHERRYTRAIL
  | APOLLO_LAKE | GEMINI_LAKE | DENVERTON | SNOWRIDGE | ELKHART_LAKE | JASPER_LAKE | CLARKDALE
  | WESTMERE_EP | NEHALEM_EX | WESTMERE_EX | SANDY_BRIDGE | JAKETOWN | IVY_BRIDGE | HASWELL
  | HASWELL_ULT | HASWELL_2 | IVYTOWN | HASWELLX | BROADWELL | BROADWELL_XEON_E3 | BDX_DE
  | SKL_UY | KBL | KBL_1 | CML | CML_1 | ICL | ICL_1 | RKL | TGL | TGL_1 | ADL | ADL_1 | RPL
  | RPL_1 | RPL_2 | RPL_3 | MTL | LNL | ARL | ARL_1 | PTL | BDX | KNL | SKL | SKX | ICX_D | ICX
  | SPR | EMR | GNR | SRF | GNR_D | GRR
  deriving DecidableEq, Repr

namespace CpuModel

/-- `useSKLPath`, the cases of `PCM_SKL_PATH_CASES`. -/
def useSKLPath : CpuModel → Bool
  | SKL_UY | KBL | KBL_1 | CML | ICL | RKL | TGL | SKL => true
  | _ => false

def isAtom : CpuModel → Bool
  | ATOM | ATOM_2 | CENTERTON | BAYTRAIL | AVOTON | CHERRYTRAIL | APOLLO_LAKE | GEMINI_LAKE
  | DENVERTON => true
  | _ => false

def memoryEventErrata : CpuModel → Bool
  | SANDY_BRIDGE | JAKETOWN | IVYTOWN | IVY_BRIDGE | HASWELL | HASWELLX => true
  | _ => false

def packageEnergyMetricsAvailable : CpuModel → Bool
  | JAKETOWN | IVYTOWN | SANDY_BRIDGE | IVY_BRIDGE | HASWELL | AVOTON | CHERRYTRAIL | BAYTRAIL
  | APOLLO_LAKE | GEMINI_LAKE | DENVERTON | SNOWRIDGE | ELKHART_LAKE | JASPER_LAKE | HASWELLX
  | BROADWELL | BDX_DE | BDX | KNL | SKX | ICX | ADL | RPL | MTL | LNL | ARL | PTL | SPR | EMR
  | GNR | GNR_D | SRF | GRR => true
  | m => m.useSKLPath

def packageThermalMetricsAvailable (m : CpuModel) : Bool := m.packageEnergyMetricsAvailable

def localMemoryRequestRatioMetricAvailable : CpuModel → Bool
  | HASWELLX | BDX | SKX | ICX | SPR | EMR | SRF | GNR => true
  | _ => false

def nearMemoryMetricsAvailable : CpuModel → Bool
  | SRF | GNR | GNR_D => true
  | _ => false

/-- Cascade Lake-SP. -/
def isCLX (m : CpuModel) (stepping : Nat) : Bool := m = SKX && (4 < stepping && stepping < 8)

/-- Cooper Lake. -/
def isCPX (m : CpuModel) (stepping : Nat) : Bool := m = SKX && 10 ≤ stepping

def pmmTrafficMetricsAvailable (m : CpuModel) (stepping : Nat) : Bool :=
  m.isCLX stepping || m.isCPX stepping || m = ICX || m = SNOWRIDGE || m = SPR || m = EMR

/-- Built without `PCM_ENABLE_LLCRDLAT_SKX_MP`. -/
def llcReadMissLatencyMetricsAvailable (m : CpuModel) (stepping numSockets : Nat) : Bool :=
  m = HASWELLX || m = BDX_DE || m = BDX || m.isCLX stepping || m.isCPX stepping ||
    (m = SKX && numSockets = 1) || m = ICX || m = SPR || m = SNOWRIDGE

def hasPCICFGUncore : CpuModel → Bool
  | JAKETOWN | SNOWRIDGE | IVYTOWN | HASWELLX | BDX_DE | SKX | ICX | SPR | EMR | GNR | GNR_D | SRF
  | GRR | BDX | KNL => true
  | _ => false

def hasCHA : CpuModel → Bool
  | SKX | ICX | SPR | EMR | GNR | GNR_D | SRF | GRR => true
  | _ => false

end CpuModel

end Pcm
