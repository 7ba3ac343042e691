import Pcm.Lib.Decimal
import Pcm.MemoryBandwidth
import Pcm.RawOutput

/-!
# CSV output of `pcm-memory`

`display_bandwidth_csv` (`pcm-memory.cpp:595-901`), which prints the two headers and the data by the same
calls of `choose`, and the runs of `calculate_bandwidth` (`pcm-memory.cpp:1163-1172`). The columns of an HBM
channel are left out of a line when the channel had no traffic in the sample of this line.
-/

namespace Pcm.Memory

open StdString
open Raw (CsvOutputType choose)

/-! ## Quantities -/

/-- What is printed for a socket. -/
inductive Item
  | chRead (channel : Nat) | chWrite (channel : Nat) | chPmmRead (channel : Nat) | chPmmWrite (channel : Nat)
  | memRead | memWrite | pmmRead | pmmWrite | nmHitRate | nmHits | nmMisses | nmMissBw
  | nmReadHitRate (controller : Nat) | pmmAd | pmmMm | pmmMmRatio | partialWrite | memory
  | edcRead (channel : Nat) | edcWrite (channel : Nat) | hbmRead | hbmWrite | hbm
  | cxlMemRead (port : Nat) | cxlMemWrite (port : Nat) | cxlCacheRead (port : Nat) | cxlCacheWrite (port : Nat)
  deriving DecidableEq, Repr

/-- What is printed for the system. -/
inductive SystemItem
  | dramRead | dramWrite | pmmRead | pmmWrite | cxlRead | read | write | memory
  deriving DecidableEq, Repr

inductive Quantity
  | date
  | time
  | socket (skt : Nat) (item : Item)
  | system (item : SystemItem)
  deriving DecidableEq, Repr

/-- The names that stand for the quantities of a socket in the second header. -/
def Item.name : Item → Bytes
  | chRead channel => ascii "Ch" ++ decimal channel ++ ascii "Read"
  | chWrite channel => ascii "Ch" ++ decimal channel ++ ascii "Write"
  | chPmmRead channel => ascii "Ch" ++ decimal channel ++ ascii "PMM_Read"
  | chPmmWrite channel => ascii "Ch" ++ decimal channel ++ ascii "PMM_Write"
  | memRead => ascii "Mem Read (MB/s)"
  | memWrite => ascii "Mem Write (MB/s)"
  | pmmRead => ascii "PMM_Read (MB/s)"
  | pmmWrite => ascii " PMM_Write (MB/s)"
  | nmHitRate => ascii "NM hit rate"
  | nmHits => ascii "NM hits (M/s)"
  | nmMisses => ascii "NM misses (M/s)"
  | nmMissBw => ascii "NM miss Bw (MB/s)"
  | nmReadHitRate c => ascii "iMC" ++ decimal c ++ ascii " NM read hit rate"
  | pmmAd => ascii "PMM_AD (MB/s)"
  | pmmMm => ascii " PMM_MM (MB/s)"
  | pmmMmRatio => ascii " PMM_MM_Bw/DRAM_Bw"
  | partialWrite => ascii "P. Write (T/s)"
  | memory => ascii "Memory (MB/s)"
  | edcRead channel => ascii "EDC_Ch" ++ decimal channel ++ ascii "Read"
  | edcWrite channel => ascii "EDC_Ch" ++ decimal channel ++ ascii "Write"
  | hbmRead => ascii "HBM Read (MB/s)"
  | hbmWrite => ascii " HBM Write (MB/s)"
  | hbm => ascii " HBM (MB/s)"
  | cxlMemRead port => ascii "CXL.mem_P" ++ decimal port ++ ascii "Read"
  | cxlMemWrite port => ascii "CXL.mem_P" ++ decimal port ++ ascii "Write"
  | cxlCacheRead port => ascii "CXL.cache_P" ++ decimal port ++ ascii "dv->hst"
  | cxlCacheWrite port => ascii "CXL.cache_P" ++ decimal port ++ ascii "hst->dv"

def SystemItem.name : SystemItem → Bytes
  | dramRead => ascii "DRAMRead"
  | dramWrite => ascii "DRAMWrite"
  | pmmRead => ascii "PMMREAD"
  | pmmWrite => ascii "PMMWrite"
  | cxlRead => ascii "CXLRead"
  | read => ascii "Read"
  | write => ascii "Write"
  | memory => ascii "Memory"

/-- The socket that the first header has for a quantity. -/
def Quantity.owner : Quantity → Bytes
  | date | time => []
  | socket skt _ => ascii "SKT" ++ decimal skt
  | system _ => ascii "System"

def Quantity.name : Quantity → Bytes
  | date => ascii "Date"
  | time => ascii "Time"
  | socket _ item => item.name
  | system item => item.name

/-! ## Values -/

/-- `sysReadDRAM`, `sysWriteDRAM`, `sysReadPMM` and `sysWritePMM`, which are summed up while the data is
printed. -/
structure Sums where
  readDRAM : ℚ := 0
  writeDRAM : ℚ := 0
  readPMM : ℚ := 0
  writePMM : ℚ := 0

/-- What a line of data is printed from; `format` is `cout << setw(w) << value` for a `float`. -/
structure Printed where
  setup : Setup
  md : Nat → SocketData
  cxlReadBW : ℚ
  date : Bytes
  time : Bytes
  format : Nat → ℚ → Bytes

section Values

variable (p : Printed)

def addSocket (sums : Sums) (skt : Nat) : Sums :=
  let md := p.md skt
  { readDRAM := sums.readDRAM + md.iMC_Rd + if p.setup.hbm then md.EDC_Rd else 0
    writeDRAM := sums.writeDRAM + md.iMC_Wr + if p.setup.hbm then md.EDC_Wr else 0
    readPMM := sums.readPMM + md.iMC_PMM_Rd
    writePMM := sums.writePMM + md.iMC_PMM_Wr }

def Printed.sums : Sums := (List.range p.setup.numSockets).foldl (addSocket p) {}

def AD_BW (md : SocketData) : ℚ := max (md.iMC_PMM_Rd + md.iMC_PMM_Wr - md.MemoryMode_Miss) 0

def PMM_MM_Ratio (md : SocketData) : ℚ := md.MemoryMode_Miss / (md.iMC_Rd + md.iMC_Wr)

/-- `invalid_data` -/
def invalidData (md : SocketData) (channel : Nat) : Prop :=
  md.iMC_Rd_chan channel < 0 ∧ md.iMC_Wr_chan channel < 0

instance decidableInvalidData (md : SocketData) (channel : Nat) : Decidable (invalidData md channel) :=
  inferInstanceAs (Decidable (_ ∧ _))

/-- The values of a channel are left blank where it is not working. -/
def channelText (md : SocketData) (channel : Nat) (value : ℚ) : Bytes :=
  if invalidData md channel then [] else p.format 8 value

/-- `cout << setw(10) << dec << value` -/
def integerText (value : BitVec 64) : Bytes :=
  List.replicate (10 - (decimal value.toNat).length) 32 ++ decimal value.toNat

def Item.text (md : SocketData) : Item → Bytes
  | chRead channel => channelText p md channel (md.iMC_Rd_chan channel)
  | chWrite channel => channelText p md channel (md.iMC_Wr_chan channel)
  | chPmmRead channel => channelText p md channel (md.iMC_PMM_Rd_chan channel)
  | chPmmWrite channel => channelText p md channel (md.iMC_PMM_Wr_chan channel)
  | memRead => p.format 8 md.iMC_Rd
  | memWrite => p.format 8 md.iMC_Wr
  | pmmRead => p.format 8 md.iMC_PMM_Rd
  | pmmWrite => p.format 8 md.iMC_PMM_Wr
  | nmHitRate => p.format 8 md.NM_hit_rate
  | nmHits => p.format 8 (md.MemoryMode_Hit / 1000000)
  | nmMisses => p.format 8 (md.MemoryMode_Miss / 1000000)
  | nmMissBw => p.format 9 (md.MemoryMode_Miss * 64 * 2 / 1000000)
  | nmReadHitRate c => p.format 8 (md.M2M_NM_read_hit_rate c)
  | pmmAd => p.format 8 (AD_BW md)
  | pmmMm => p.format 8 md.MemoryMode_Miss
  | pmmMmRatio => p.format 8 (PMM_MM_Ratio md)
  | partialWrite => integerText md.partial_write
  | memory => p.format 8 (md.iMC_Rd + md.iMC_Wr)
  | edcRead channel => p.format 8 (md.EDC_Rd_chan channel)
  | edcWrite channel => p.format 8 (md.EDC_Wr_chan channel)
  | hbmRead => p.format 8 md.EDC_Rd
  | hbmWrite => p.format 8 md.EDC_Wr
  | hbm => p.format 8 (md.EDC_Rd + md.EDC_Wr)
  | cxlMemRead port => p.format 8 (md.CXLMEM_Rd_port port)
  | cxlMemWrite port => p.format 8 (md.CXLMEM_Wr_port port)
  | cxlCacheRead port => p.format 8 (md.CXLCACHE_Rd_port port)
  | cxlCacheWrite port => p.format 8 (md.CXLCACHE_Wr_port port)

def SystemItem.text : SystemItem → Bytes
  | dramRead => p.format 10 p.sums.readDRAM
  | dramWrite => p.format 10 p.sums.writeDRAM
  | pmmRead => p.format 10 p.sums.readPMM
  | pmmWrite => p.format 10 p.sums.writePMM
  | cxlRead => p.format 10 p.cxlReadBW
  | read => p.format 10 (p.sums.readDRAM + p.sums.readPMM)
  | write => p.format 10 (p.sums.writeDRAM + p.sums.writePMM)
  | memory =>
      p.format 10 (p.sums.readDRAM + p.sums.readPMM + p.sums.writeDRAM + p.sums.writePMM)

/-- The text of a quantity. -/
def Quantity.text : Quantity → Bytes
  | date => p.date
  | time => p.time
  | socket skt item => item.text p (p.md skt)
  | system item => item.text p

end Values

/-! ## Calls of `choose` -/

/-- What the three functions of a call print. -/
structure Choice where
  header1 : List Bytes
  header2 : List Bytes
  data : List Quantity

/-- A field of a line. -/
inductive Cell
  | label (text : Bytes)
  | value (quantity : Quantity) (text : Bytes)
  deriving DecidableEq, Repr

def Choice.cells (p : Printed) (outputType : CsvOutputType) (choice : Choice) : List Cell :=
  choose outputType (choice.header1.map .label) (choice.header2.map .label)
    (choice.data.map (fun q => .value q (q.text p)))

def printSKT (skt c : Nat) : List Bytes := List.replicate c (ascii "SKT" ++ decimal skt)

section Choices

variable (setup : Setup) (md : SocketData) (skt : Nat)

/-- The values of a socket. -/
def ofSocket (items : List Item) : List Quantity := items.map (.socket skt)

def printDateForCSV : Choice := ⟨[[], []], [ascii "Date", ascii "Time"], [.date, .time]⟩

/-- A DRAM channel, whether it is working or not. -/
def channelChoices (channel : Nat) : List Choice :=
  ⟨printSKT skt 2,
    [ascii "Ch" ++ decimal channel ++ ascii "Read", ascii "Ch" ++ decimal channel ++ ascii "Write"],
    ofSocket skt [.chRead channel, .chWrite channel]⟩ ::
  if setup.metrics = .pmem then
    [⟨printSKT skt 2,
      [ascii "Ch" ++ decimal channel ++ ascii "PMM_Read", ascii "Ch" ++ decimal channel ++ ascii "PMM_Write"],
      ofSocket skt [.chPmmRead channel, .chPmmWrite channel]⟩]
  else []

def imcChoices : List Choice :=
  if setup.showChannelOutput then (List.range setup.maxImcChannels).flatMap (channelChoices setup skt)
  else []

def memoryChoices : List Choice :=
  ⟨printSKT skt 2, [ascii "Mem Read (MB/s)", ascii "Mem Write (MB/s)"], ofSocket skt [.memRead, .memWrite]⟩ ::
  if anyPmem setup.metrics then
    [⟨printSKT skt 2, [ascii "PMM_Read (MB/s)", ascii " PMM_Write (MB/s)"],
      ofSocket skt [.pmmRead, .pmmWrite]⟩]
  else []

def nearMemoryChoices : List Choice :=
  (if setup.metrics = .pmemMemoryMode ∧ setup.cpuFamilyModel = .ICX ∨ bhs setup then
    [⟨printSKT skt 3, [ascii "NM hit rate", ascii "NM hits (M/s)", ascii "NM misses (M/s)"],
      ofSocket skt [.nmHitRate, .nmHits, .nmMisses]⟩]
  else []) ++
  (if bhs setup then [⟨printSKT skt 1, [ascii "NM miss Bw (MB/s)"], ofSocket skt [.nmMissBw]⟩] else []) ++
  if setup.metrics = .pmem ∧ setup.cpuFamilyModel = .SKX then
    (List.range maxImcControllers).map (fun c =>
      ⟨printSKT skt 1, [ascii "iMC" ++ decimal c ++ ascii " NM read hit rate"],
        ofSocket skt [.nmReadHitRate c]⟩)
  else []

def mixedChoices : List Choice :=
  if setup.metrics = .pmemMixedMode then
    [⟨printSKT skt 3, [ascii "PMM_AD (MB/s)", ascii " PMM_MM (MB/s)", ascii " PMM_MM_Bw/DRAM_Bw"],
      ofSocket skt [.pmmAd, .pmmMm, .pmmMmRatio]⟩]
  else []

def partialChoices : List Choice :=
  if setup.hbm = false ∧ setup.metrics = .partialWrites ∧ twoSubChannels setup = false then
    [⟨printSKT skt 1, [ascii "P. Write (T/s)"], ofSocket skt [.partialWrite]⟩]
  else []

/-- An HBM channel that is not working is left out. -/
def omitted (channel : Nat) : Prop := md.EDC_Rd_chan channel < 0 ∧ md.EDC_Wr_chan channel < 0

instance decidableOmitted (channel : Nat) : Decidable (omitted md channel) :=
  inferInstanceAs (Decidable (_ ∧ _))

def edcChoices : List Choice :=
  if setup.showChannelOutput then
    (List.range maxEdcChannels).flatMap (fun channel =>
      if omitted md channel then []
      else
        [⟨printSKT skt 2,
          [ascii "EDC_Ch" ++ decimal channel ++ ascii "Read", ascii "EDC_Ch" ++ decimal channel ++ ascii "Write"],
          ofSocket skt [.edcRead channel, .edcWrite channel]⟩])
  else []

def hbmChoices : List Choice :=
  if setup.hbm then
    edcChoices setup md skt ++
      [⟨printSKT skt 3, [ascii "HBM Read (MB/s)", ascii " HBM Write (MB/s)", ascii " HBM (MB/s)"],
        ofSocket skt [.hbmRead, .hbmWrite, .hbm]⟩]
  else []

def cxlChoice (port : Nat) : Choice :=
  if bhs setup then
    ⟨printSKT skt 4,
      [ascii "CXL.mem_P" ++ decimal port ++ ascii "Read", ascii "CXL.mem_P" ++ decimal port ++ ascii "Write",
        ascii "CXL.cache_P" ++ decimal port ++ ascii "dv->hst",
        ascii "CXL.cache_P" ++ decimal port ++ ascii "hst->dv"],
      ofSocket skt [.cxlMemRead port, .cxlMemWrite port, .cxlCacheRead port, .cxlCacheWrite port]⟩
  else
    ⟨printSKT skt 2,
      [ascii "CXL.mem_P" ++ decimal port ++ ascii "Write",
        ascii "CXL.cache_P" ++ decimal port ++ ascii "hst->dv"],
      ofSocket skt [.cxlMemWrite port, .cxlCacheWrite port]⟩

def cxlChoices : List Choice :=
  if setup.showCxlOutput then (List.range (setup.numCXLPorts skt)).map (cxlChoice setup skt) else []

/-- The calls for a socket. -/
def socketChoices : List Choice :=
  imcChoices setup skt ++ memoryChoices setup skt ++ nearMemoryChoices setup skt ++ mixedChoices setup skt ++
    partialChoices setup skt ++ [⟨printSKT skt 1, [ascii "Memory (MB/s)"], ofSocket skt [.memory]⟩] ++
    hbmChoices setup md skt ++ cxlChoices setup skt

def systemChoices : List Choice :=
  (if anyPmem setup.metrics then
    [⟨List.replicate 4 (ascii "System"),
      [ascii "DRAMRead", ascii "DRAMWrite", ascii "PMMREAD", ascii "PMMWrite"],
      [.system .dramRead, .system .dramWrite, .system .pmmRead, .system .pmmWrite]⟩]
  else []) ++
  (if setup.sprCxl then [⟨[ascii "System"], [ascii "CXLRead"], [.system .cxlRead]⟩] else []) ++
  [⟨List.replicate 3 (ascii "System"), [ascii "Read", ascii "Write", ascii "Memory"],
    [.system .read, .system .write, .system .memory]⟩]

end Choices

/-- All calls of `display_bandwidth_csv`. -/
def choices (p : Printed) : List Choice :=
  printDateForCSV ::
    (List.range p.setup.numSockets).flatMap (fun skt => socketChoices p.setup (p.md skt) skt) ++
    systemChoices p.setup

/-- The fields of a line, which are printed with commas between them. -/
def display_bandwidth_csv (p : Printed) (outputType : CsvOutputType) : List Cell :=
  (choices p).flatMap (fun choice => choice.cells p outputType)

/-! ## Runs -/

section Runs

variable (setup : Setup) (format : Nat → ℚ → Bytes)

/-- What a line is printed from, with the date and the time at which it is printed. -/
def printed (date time : Bytes) (sample : Sample) : Printed where
  setup := setup
  md := socketData setup sample
  cxlReadBW := toBW sample sample.sprChaCxlCount
  date := date
  time := time
  format := format

/-- A sample, and when it is printed. -/
structure Dated where
  sample : Sample
  date : Bytes
  time : Bytes

/-- `calculate_bandwidth` with `csv`; the result is `csvheader` and the lines. -/
def calculate_bandwidth (csvheader : Bool) (s : Dated) : Bool × List (List Cell) :=
  let p := printed setup format s.date s.time s.sample
  let headers :=
    if csvheader then [display_bandwidth_csv p .header1, display_bandwidth_csv p .header2] else []
  (false, headers ++ [display_bandwidth_csv p .data])

/-- The lines of a run, and `csvheader` before it. -/
def run (csvheader : Bool) : List Dated → List (List Cell)
  | [] => []
  | s :: later =>
      let (csvheader, lines) := calculate_bandwidth setup format csvheader s
      lines ++ run csvheader later

end Runs

end Pcm.Memory
