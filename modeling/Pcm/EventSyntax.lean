import Mathlib.Data.List.Infix
import Pcm.Lib.StdString
import Pcm.RawConfig

/-!
# Raw events of `pcm-raw`

An event is written as `pmu/config=...,name=.../`. `parseEvent` is the part of `addEvent` that does not
depend on the events already there (`pcm-raw.cpp:1049-1172`), with the conversions from `utils.cpp`.
-/

namespace Pcm.Raw

open StdString

/-! ## Conversions -/

/-- The bytes as the text of a name. -/
def text (bytes : Bytes) : String := String.ofList (bytes.map (fun c => Char.ofNat c.toNat))

/-- What `while (std::getline(s, str, delim))` reads: a last piece without a delimiter is one, unless
it is empty. -/
def getlines (delim : UInt8) (begun : Bytes) : Bytes → List Bytes
  | [] => if begun = [] then [] else [begun]
  | c :: rest => if c = delim then begun :: getlines delim [] rest else getlines delim (begun ++ [c]) rest

theorem getlines_append {delim : UInt8} {begun line rest : Bytes} (clear : delim ∉ line) :
    getlines delim begun (line ++ delim :: rest) = (begun ++ line) :: getlines delim [] rest := by
  induction line generalizing begun with
  | nil => simp [getlines]
  | cons c line ih =>
      rw [List.mem_cons, not_or] at clear
      rw [List.cons_append, getlines, if_neg (Ne.symm clear.1), ih clear.2, List.append_assoc]
      rfl

theorem getlines_whole {delim : UInt8} {begun line : Bytes} (clear : delim ∉ line)
    (some : begun ++ line ≠ []) : getlines delim begun line = [begun ++ line] := by
  induction line generalizing begun with
  | nil =>
      rw [List.append_nil] at some ⊢
      rw [getlines, if_neg some]
  | cons c line ih =>
      rw [List.mem_cons, not_or] at clear
      rw [getlines, if_neg (Ne.symm clear.1), ih clear.2 (by simp), List.append_assoc]
      rfl

/-- `split` (`utils.cpp:806-816`) -/
def split (str : Bytes) (delim : UInt8) : List Bytes := getlines delim [] str

/-- `pcm_sscanf(str) >> s_expect(expected)`: what is left to be read, and none when the stream fails. -/
def s_expect (expected str : Bytes) : Option Bytes :=
  if expected.isPrefixOf str then some (str.drop expected.length) else none

/-- The `0x` that a stream accepts before hexadecimal digits. -/
def dropMark : Bytes → Bytes
  | 48 :: 120 :: rest => rest
  | 48 :: 88 :: rest => rest
  | str => str

/-- Extraction of an `uint64`; white space is not skipped. -/
def extractNumber (base : Nat) (str : Bytes) : Option (BitVec 64) :=
  let (negative, unsigned) := splitSign str
  let digits := digitRun base (if base = 16 then dropMark unsigned else unsigned)
  let value := digitsToNat base digits
  if digits = [] then none
  else if 2 ^ 64 ≤ value then none
  else some (if negative then -BitVec.ofNat 64 value else BitVec.ofNat 64 value)

/-- Extraction of a string after `setw(255)`; white space is not skipped. -/
def extractString (str : Bytes) : Option Bytes :=
  let word := (str.takeWhile (fun c => !isspace c)).take 255
  if word = [] then none else some word

/-- `match` (`utils.cpp:893-902`). Where it fails after its name was found, the word it was to fill may be
overwritten, but then the token matches nothing else and the event is rejected. -/
def matchNumber (subtoken sname : Bytes) : Option (BitVec 64) :=
  match (s_expect (sname ++ ascii "0x") subtoken).bind (extractNumber 16) with
  | some value => some value
  | none => (s_expect sname subtoken).bind (extractNumber 10)

def check_for_injections (str : Bytes) : Bool := [61, 43, 45, 64].contains (charAt str 0)

/-! ## The telemetry database -/

/-- `TelemetryDB::PMTRecord` -/
structure PMTRecord where
  uid : BitVec 64
  fullName : Bytes
  sampleType : Bytes
  qWordOffset : BitVec 64
  lsb : BitVec 32
  msb : BitVec 32
  deriving DecidableEq

def tolower (c : UInt8) : UInt8 := if 65 ≤ c && c ≤ 90 then c + 32 else c

/-- `TelemetryDB::lookup` (`pmt.cpp:275-286`) -/
def lookup (records : List PMTRecord) (name : Bytes) : List PMTRecord :=
  records.filter (fun record => decide (name <:+: record.fullName))

/-- `TelemetryDB::ilookup` -/
def ilookup (records : List PMTRecord) (name : Bytes) : List PMTRecord :=
  records.filter (fun record => decide (name.map tolower <:+: record.fullName.map tolower))

/-! ## Events -/

structure Event where
  pmuName : String
  fixed : Bool
  config : RawEventConfig
  deriving DecidableEq

/-- `initCoreConfig` -/
def initCoreConfig : RawEventConfig :=
  { encoding := #v[0, 0, 0, BitVec.allOnes 64, BitVec.allOnes 64, 0] }

/-- The tokens that fill a word, and which one. -/
def words : List (Bytes × Fin 6) :=
  [(ascii "config=", 0), (ascii "config1=", 1), (ascii "config2=", 2), (ascii "config3=", 3),
    (ascii "config4=", 4), (ascii "config5=", 5), (ascii "width=", 5)]

def matchWord (item : Bytes) : Option (Fin 6 × BitVec 64) :=
  words.findSome? (fun word => (matchNumber item word.1).map (fun value => (word.2, value)))

/-- The tokens that look for a record, with what they find, and whether the first of several will do. -/
def matchLookup (records : List PMTRecord) (item : Bytes) : Option (List PMTRecord × Bool) :=
  [(ascii "lookup=", lookup records, false), (ascii "ilookup=", ilookup records, false),
    (ascii "lookupf=", lookup records, true), (ascii "ilookupf=", ilookup records, true)].findSome?
    (fun token => ((s_expect token.1 item).bind extractString).map
      (fun name => (token.2.1 name, token.2.2)))

/-- `pmtAddRecord` (`pcm-raw.cpp:1081-1111`) -/
def pmtAddRecord (pmuName : String) (config : RawEventConfig) (records : List PMTRecord)
    (first : Bool) : Option RawEventConfig :=
  if pmuName = "pmt" then
    match records with
    | [] => none
    | record :: others =>
        if others ≠ [] && !first then none
        else
          let type : BitVec 64 := if record.sampleType = ascii "Snapshot" then 0 else 1
          some ⟨((((config.encoding.set 0 record.uid).set 1 record.qWordOffset).set 2 type).set 3
            (record.lsb.setWidth 64)).set 4 (record.msb.setWidth 64), text record.fullName⟩
  else some config

/-- One token of a description. -/
def addItem (records : List PMTRecord) (pmuName : String) (parsed : RawEventConfig × Bool)
    (item : Bytes) : Option (RawEventConfig × Bool) :=
  match matchWord item with
  | some (i, value) =>
      some ({ parsed.1 with encoding := parsed.1.encoding.set i.1 value i.2 }, parsed.2)
  | none =>
      match (s_expect (ascii "name=") item).bind extractString with
      | some name =>
          if check_for_injections name then none
          else some ({ parsed.1 with name := text name }, parsed.2)
      | none =>
          match matchLookup records item with
          | some (found, first) =>
              (pmtAddRecord pmuName parsed.1 found first).map (fun config => (config, parsed.2))
          | none => if item = ascii "fixed" then some (parsed.1, true) else none

/-- The event that a text with a slash describes. -/
def parseEvent (records : List PMTRecord) (eventStr : Bytes) : Option Event :=
  match split eventStr 47 with
  | pmu :: configStr :: _ =>
      let pmuName := if pmu = [] then "core" else text pmu
      if configStr = [] then none
      else
        let config : RawEventConfig := if pmuName = "core" || pmuName = "atom" then initCoreConfig
          else { encoding := Vector.replicate 6 0 }
        ((split configStr 44).foldlM (addItem records pmuName) (config, false)).map
          (fun parsed => ⟨pmuName, parsed.2, parsed.1⟩)
  | _ => none

example : (parseEvent [] (ascii "/config=0x3c,config1=10,name=A/")).map
    (fun event => (event.pmuName, event.fixed, event.config.encoding.toList.take 3)) =
    some ("core", false, [0x3c, 10, 0]) := by decide

end Pcm.Raw
