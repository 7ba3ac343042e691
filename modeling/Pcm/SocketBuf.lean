import Mathlib.Data.List.TakeDrop
import Pcm.Lib.Runs

/-!
# The socket stream buffer

`basic_socketbuf` (`pcm-sensor-server.cpp:1037-1360`) without SSL: the put area that `sync` and
`overflow` send through the socket, and the get area that `underflow` fills from it. The character
type is `char`, signed, with the traits of the standard library.
-/

namespace Pcm

/-! ## Characters and `int_type` -/

namespace CharTraits

def eof : Int := -1

/-- `to_int_type`: the value as an `unsigned char`. -/
def toIntType (c : UInt8) : Int := c.toNat

def toCharType (i : Int) : UInt8 := UInt8.ofNat (i % 256).toNat

def notEof (i : Int) : Int := if i = eof then 0 else i

/-- A plain `char` converted to `int`. -/
def charToInt (c : UInt8) : Int := if c.toNat < 128 then c.toNat else (c.toNat : Int) - 256

@[simp] theorem toCharType_toIntType (c : UInt8) : toCharType (toIntType c) = c := by
  have small : (c.toNat : Int) % 256 = c.toNat := by
    have := c.toNat_lt
    omega
  simp [toCharType, toIntType, small]

theorem toIntType_ne_eof (c : UInt8) : toIntType c ≠ eof := by
  simp only [toIntType, eof]
  omega

theorem notEof_ne_eof (i : Int) : notEof i ≠ eof := by
  simp only [notEof]
  split
  · decide
  · assumption

/-- The only character that a conversion to `int` confuses with the end of the file. -/
theorem charToInt_eq_eof_iff (c : UInt8) : charToInt c = eof ↔ c = 255 := by
  have bound := c.toNat_lt
  rw [← UInt8.toNat_inj]
  simp only [charToInt, eof, UInt8.reduceToNat]
  split <;> omega

@[simp] theorem toCharType_charToInt (c : UInt8) : toCharType (charToInt c) = c := by
  have bound := c.toNat_lt
  have same : (charToInt c % 256).toNat = c.toNat := by
    simp only [charToInt]
    split <;> omega
  simp [toCharType, same]

end CharTraits

open CharTraits

/-! ## Sending -/

/-- What `::send` answers to the bytes it is offered: an error, or it takes those it has room for, in
order from the first. -/
inductive SendAnswer
  | error
  | room (bytes : Nat)
  deriving DecidableEq, Repr

/-- The put area `[pbase, pptr)`, which begins at `outputBuffer_`. -/
structure PutBuffer (size : Nat) where
  putArea : List UInt8
  /-- `socketFD_` is not `INVALID_SOCKET`. -/
  isOpen : Bool
  fits : putArea.length ≤ size
  positive : 0 < size

namespace PutBuffer

variable {size : Nat}

/-- The constructor's `setp`, with the socket of `setSocket`. -/
def construct (positive : 0 < size) (isOpen : Bool) : PutBuffer size where
  putArea := []
  isOpen := isOpen
  fits := Nat.zero_le size
  positive := positive

/-- `bytesSent`, none for `SOCKET_ERROR`; a send through an invalid descriptor is an error. -/
def bytesSent (b : PutBuffer size) : SendAnswer → Option Nat
  | .error => none
  | .room bytes => if b.isOpen then some (min bytes b.putArea.length) else none

theorem take_fits (b : PutBuffer size) (count : Nat) : (b.putArea.take count).length ≤ size :=
  Nat.le_trans (List.length_take_le' count b.putArea) b.fits

theorem append_fits {b : PutBuffer size} (c : UInt8) (notFull : b.putArea.length < size) :
    (b.putArea ++ [c]).length ≤ size := by
  rw [List.length_append, List.length_singleton]
  exact notFull

/-- `pbump(-count)`: the last `count` characters leave the put area. -/
def pbumpBack (b : PutBuffer size) (count : Nat) : PutBuffer size :=
  { b with
    putArea := b.putArea.take (b.putArea.length - count)
    fits := b.take_fits _ }

/-- `setp(outputBuffer_, outputBuffer_ + SIZE)` -/
def setp (b : PutBuffer size) : PutBuffer size := { b with putArea := [], fits := Nat.zero_le size }

/-- `*pptr() = c; pbump(1)` -/
def store (b : PutBuffer size) (c : UInt8) (notFull : b.putArea.length < size) : PutBuffer size :=
  { b with
    putArea := b.putArea ++ [c]
    fits := append_fits c notFull }

/-- What a call gives back, the bytes that went out during it, and the buffer after it. -/
abbrev Result (size : Nat) := Int × List UInt8 × PutBuffer size

/-- `writeToSocket` (`pcm-sensor-server.cpp:1147-1212`) -/
def writeToSocket (b : PutBuffer size) (answer : SendAnswer) : Result size :=
  match b.bytesSent answer with
  | none => (eof, [], b)
  | some count => (count, b.putArea.take count, b.pbumpBack count)

/-- `sync` (`pcm-sensor-server.cpp:1214-1225`) -/
def sync (b : PutBuffer size) (answer : SendAnswer) : Result size :=
  if b.isOpen = false then (0, [], b)
  else
    let (ret, out, after) := b.writeToSocket answer
    if ret = eof then (-1, out, after) else (0, out, after)

/-- `overflow` (`pcm-sensor-server.cpp:1227-1241`) -/
def overflow (b : PutBuffer size) (ch : Int) (answer : SendAnswer) : Result size :=
  let (bytesWritten, out, after) := b.writeToSocket answer
  if bytesWritten = eof then (eof, out, after)
  else
    let reset := after.setp
    if ch ≠ eof then (notEof ch, out, reset.store (toCharType ch) after.positive)
    else (notEof ch, out, reset)

/-- `sputc` of the standard library: store the character, or `overflow` if there is no room. -/
def sputc (b : PutBuffer size) (c : UInt8) (answer : SendAnswer) : Result size :=
  if notFull : b.putArea.length < size then (toIntType c, [], b.store c notFull)
  else b.overflow (toIntType c) answer

end PutBuffer

inductive PutCall
  | sputc (c : UInt8)
  | overflow (ch : Int)
  | sync
  deriving DecidableEq, Repr

/-- The character that a call is given to write. -/
def PutCall.character : PutCall → Option UInt8
  | .sputc c => some c
  | .overflow ch => if ch = eof then none else some (toCharType ch)
  | .sync => none

def PutBuffer.call {size : Nat} (b : PutBuffer size) (answer : SendAnswer) :
    PutCall → PutBuffer.Result size
  | .sputc c => b.sputc c answer
  | .overflow ch => b.overflow ch answer
  | .sync => b.sync answer

/-- The buffer with its past: what the socket has accepted and what has been written, a character
whose call gave back `eof` not counting as written. -/
structure OutStream (size : Nat) where
  buffer : PutBuffer size
  accepted : List UInt8
  written : List UInt8

namespace OutStream

variable {size : Nat}

def start (positive : 0 < size) (isOpen : Bool) : OutStream size where
  buffer := .construct positive isOpen
  accepted := []
  written := []

/-- The stream after a call that was given `character` to write. -/
def record (s : OutStream size) (character : Option UInt8) (result : PutBuffer.Result size) :
    OutStream size where
  buffer := result.2.2
  accepted := s.accepted ++ result.2.1
  written := if result.1 = eof then s.written else s.written ++ character.toList

def step (s : OutStream size) (event : PutCall × SendAnswer) : OutStream size :=
  s.record event.1.character (s.buffer.call event.2 event.1)

/-- What was accepted is a prefix of what was written and the put area is the rest of it. -/
def Faithful (s : OutStream size) : Prop := s.accepted ++ s.buffer.putArea = s.written

/-- The answer agrees with what the call does to the put area: a call that empties it was allowed to
send all of it, and a `sync` that keeps its first characters was left with characters equal to those. -/
def Delivers (s : OutStream size) (event : PutCall × SendAnswer) : Prop :=
  ∀ sent, s.buffer.bytesSent event.2 = some sent →
    match event.1 with
    | .sputc _ => s.buffer.putArea.length = size → sent = size
    | .overflow _ => sent = s.buffer.putArea.length
    | .sync => s.buffer.putArea.take (s.buffer.putArea.length - sent) = s.buffer.putArea.drop sent

theorem ofNat_ne_eof (count : Nat) : (count : Int) ≠ eof := by
  simp only [eof]
  omega

theorem overflow_of_error {b : PutBuffer size} {answer : SendAnswer} (failed : b.bytesSent answer = none)
    (ch : Int) : b.overflow ch answer = (eof, [], b) := by
  simp [PutBuffer.overflow, PutBuffer.writeToSocket, failed]

theorem overflow_of_sent {b : PutBuffer size} {answer : SendAnswer} {sent : Nat}
    (accepts : b.bytesSent answer = some sent) (ch : Int) :
    (b.overflow ch answer).1 = notEof ch ∧
      (b.overflow ch answer).2.1 = b.putArea.take sent ∧
      (b.overflow ch answer).2.2.putArea = (PutCall.overflow ch).character.toList := by
  simp only [PutBuffer.overflow, PutBuffer.writeToSocket, accepts, ofNat_ne_eof, if_false,
    PutCall.character]
  split <;> simp_all [PutBuffer.store, PutBuffer.setp]

theorem sync_of_error {b : PutBuffer size} {answer : SendAnswer} (failed : b.bytesSent answer = none) :
    (b.sync answer).2 = ([], b) := by
  simp only [PutBuffer.sync, PutBuffer.writeToSocket, failed]
  split <;> rfl

theorem sync_of_sent {b : PutBuffer size} {answer : SendAnswer} {sent : Nat}
    (accepts : b.bytesSent answer = some sent) :
    (b.sync answer).2 = (b.putArea.take sent, b.pbumpBack sent) := by
  have opened : b.isOpen = true := by
    cases answer with
    | error => simp [PutBuffer.bytesSent] at accepts
    | room bytes =>
        by_contra closed
        simp [PutBuffer.bytesSent, closed] at accepts
  simp [PutBuffer.sync, PutBuffer.writeToSocket, accepts, opened, ofNat_ne_eof]

theorem sent_le {b : PutBuffer size} {answer : SendAnswer} {sent : Nat}
    (accepts : b.bytesSent answer = some sent) : sent ≤ b.putArea.length := by
  cases answer with
  | error => simp [PutBuffer.bytesSent] at accepts
  | room bytes =>
      simp only [PutBuffer.bytesSent, Option.ite_none_right_eq_some, Option.some.injEq] at accepts
      omega

/-- Emptying the put area after a send is right exactly if the send took all of it. -/
theorem emptied_iff {accepted put written tail : List UInt8} {sent : Nat}
    (faithful : accepted ++ put = written) (within : sent ≤ put.length) :
    accepted ++ put.take sent ++ tail = written ++ tail ↔ sent = put.length := by
  rw [List.append_left_inj, ← faithful, List.append_right_inj, List.take_eq_self_iff]
  omega

theorem faithful_record_of_error {s : OutStream size} (faithful : s.Faithful)
    {character : Option UInt8} {result : PutBuffer.Result size}
    (failed : result.1 = eof ∨ character = none) (nothing : result.2 = ([], s.buffer)) :
    (s.record character result).Faithful := by
  simp only [Faithful, record, nothing, List.append_nil]
  rcases failed with failed | rfl
  · rw [if_pos failed]
    exact faithful
  · rw [Option.toList_none, List.append_nil, ite_self]
    exact faithful

theorem faithful_overflow_iff {s : OutStream size} (faithful : s.Faithful) (ch : Int)
    (answer : SendAnswer) :
    (s.record (PutCall.overflow ch).character (s.buffer.overflow ch answer)).Faithful ↔
      ∀ sent, s.buffer.bytesSent answer = some sent → sent = s.buffer.putArea.length := by
  cases outcome : s.buffer.bytesSent answer with
  | none =>
      simp only [reduceCtorEq, false_implies, implies_true, iff_true]
      rw [overflow_of_error outcome]
      exact faithful_record_of_error faithful (Or.inl rfl) rfl
  | some sent =>
      obtain ⟨ret, out, put⟩ := overflow_of_sent outcome ch
      simp only [Faithful, record, ret, out, put, if_neg (notEof_ne_eof ch)]
      rw [emptied_iff faithful (sent_le outcome)]
      simp

theorem faithful_sync_iff {s : OutStream size} (faithful : s.Faithful) (answer : SendAnswer) :
    (s.step (.sync, answer)).Faithful ↔ s.Delivers (.sync, answer) := by
  simp only [step, PutBuffer.call, Delivers]
  cases outcome : s.buffer.bytesSent answer with
  | none =>
      simp only [reduceCtorEq, false_implies, implies_true, iff_true]
      exact faithful_record_of_error faithful (Or.inr rfl) (sync_of_error outcome)
  | some sent =>
      have kept : (s.record PutCall.sync.character (s.buffer.sync answer)).Faithful ↔
          s.buffer.putArea.take sent ++
            s.buffer.putArea.take (s.buffer.putArea.length - sent) = s.buffer.putArea := by
        simp only [Faithful, record, sync_of_sent outcome, PutCall.character, Option.toList_none,
          List.append_nil, ite_self, PutBuffer.pbumpBack]
        rw [← show s.accepted ++ s.buffer.putArea = s.written from faithful, List.append_assoc,
          List.append_right_inj]
      have parts := List.take_append_drop sent s.buffer.putArea
      rw [kept]
      simp only [Option.some.injEq, forall_eq']
      constructor
      · intro same
        exact List.append_cancel_left (same.trans parts.symm)
      · intro same
        rw [same]
        exact parts

/-- One step keeps the stream faithful exactly if the socket's answer fits the call. -/
theorem faithful_step_iff (s : OutStream size) (event : PutCall × SendAnswer)
    (faithful : s.Faithful) : (s.step event).Faithful ↔ s.Delivers event := by
  obtain ⟨call, answer⟩ := event
  cases call with
  | sputc c =>
      by_cases notFull : s.buffer.putArea.length < size
      · have stored : (s.step (.sputc c, answer)).Faithful := by
          have ret := toIntType_ne_eof c
          simp only [Faithful, step, record, PutBuffer.call, PutBuffer.sputc, notFull, dif_pos,
            if_neg ret, PutBuffer.store, List.append_nil, ← List.append_assoc]
          rw [show s.accepted ++ s.buffer.putArea = s.written from faithful]
          rfl
        simp only [stored, Delivers, true_iff]
        intro sent _ full
        omega
      · have full : s.buffer.putArea.length = size := by
          have := s.buffer.fits
          omega
        have same : (PutCall.sputc c).character = (PutCall.overflow (toIntType c)).character := by
          simp [PutCall.character, toIntType_ne_eof]
        simp only [step, PutBuffer.call, PutBuffer.sputc, notFull, dite_false, same]
        rw [faithful_overflow_iff faithful]
        simp [Delivers, full]
  | overflow ch => exact faithful_overflow_iff faithful ch answer
  | sync => exact faithful_sync_iff faithful answer

/-- From the construction of the buffer on, no byte is lost, duplicated or reordered in any state of
the run if and only if each send agrees with what its call does to the put area. -/
theorem always_faithful_iff (positive : 0 < size) (isOpen : Bool)
    (events : List (PutCall × SendAnswer)) :
    Runs.Always step Faithful (start positive isOpen) events ↔
      Runs.Each step Delivers (start positive isOpen) events :=
  Runs.always_iff_each faithful_step_iff events rfl

/-- Three characters through a buffer of two: `overflow` sends the first two, `sync` the third. -/
def threeCharacters : List (PutCall × SendAnswer) :=
  [(.sputc 97, .error), (.sputc 98, .error), (.sputc 99, .room 2), (.sync, .room 5)]

theorem always_faithful_threeCharacters :
    0 < 2 ∧ Runs.Always step Faithful (start (Nat.succ_pos 1) true) threeCharacters := by
  refine ⟨Nat.succ_pos 1, (always_faithful_iff (Nat.succ_pos 1) true threeCharacters).mpr ?_⟩
  refine ⟨?_, ?_, ?_, ?_, trivial⟩ <;> rintro sent ⟨rfl⟩ <;> decide

/-- Two characters and a `sync` of which the socket takes one: the put area keeps the character that
has been sent, not the other one. -/
def shortSend : List (PutCall × SendAnswer) :=
  [(.sputc 97, .error), (.sputc 98, .error), (.sync, .room 1)]

theorem shortSend_duplicates :
    (Runs.run step (start (Nat.succ_pos 3) true) shortSend).accepted = [97] ∧
      (Runs.run step (start (Nat.succ_pos 3) true) shortSend).buffer.putArea = [97] ∧
      (Runs.run step (start (Nat.succ_pos 3) true) shortSend).written = [97, 98] ∧
      ¬ Runs.Always step Faithful (start (Nat.succ_pos 3) true) shortSend := by
  refine ⟨by decide, by decide, by decide, ?_⟩
  intro always
  exact absurd (always shortSend List.prefix_rfl) (by simp only [Faithful]; decide)

end OutStream

/-! ## Receiving -/

/-- What one successful `::read` of at most `SIZE` bytes delivers. -/
structure Segment (size : Nat) where
  bytes : List UInt8
  nonempty : bytes ≠ []
  fits : bytes.length ≤ size

/-- `*inputBuffer_` after the segment has been read. -/
def Segment.first {size : Nat} (segment : Segment size) : UInt8 :=
  segment.bytes.head segment.nonempty

/-- The get area `[gptr, egptr)` and the segments that the peer will still deliver before it closes
its side. -/
structure GetBuffer (size : Nat) where
  getArea : List UInt8
  isOpen : Bool
  pending : List (Segment size)

namespace GetBuffer

variable {size : Nat}

def connect (segments : List (Segment size)) : GetBuffer size where
  getArea := []
  isOpen := true
  pending := segments

/-- `underflow` (`pcm-sensor-server.cpp:1243-1345`): its value is the first character of the segment,
a plain `char` converted to `int_type`. -/
def underflow (b : GetBuffer size) : Int × GetBuffer size :=
  if b.isOpen = false then (eof, { b with getArea := [] })
  else match b.pending with
    | [] => (eof, { b with isOpen := false })
    | segment :: pending =>
        (charToInt segment.first, { b with getArea := segment.bytes, pending := pending })

/-- `uflow` of the standard library: `underflow`, then take the character at `gptr()`. -/
def uflow (b : GetBuffer size) : Int × GetBuffer size :=
  let (ret, after) := b.underflow
  if ret = eof then (eof, after)
  else match after.getArea with
    | [] => (eof, after)
    | c :: getArea => (toIntType c, { after with getArea := getArea })

def sgetc (b : GetBuffer size) : Int × GetBuffer size :=
  match b.getArea with
  | [] => b.underflow
  | c :: _ => (toIntType c, b)

def sbumpc (b : GetBuffer size) : Int × GetBuffer size :=
  match b.getArea with
  | [] => b.uflow
  | c :: getArea => (toIntType c, { b with getArea := getArea })

/-- The bytes that have not been extracted. -/
def remaining (b : GetBuffer size) : Nat := b.getArea.length + (b.pending.flatMap (·.bytes)).length

theorem bytes_eq (segment : Segment size) :
    segment.bytes = segment.first :: segment.bytes.tail :=
  (List.cons_head_tail segment.nonempty).symm

/-! What `sbumpc` does in each state of the buffer. -/

@[simp] theorem sbumpc_cons (c : UInt8) (rest : List UInt8) (isOpen : Bool)
    (pending : List (Segment size)) :
    sbumpc ⟨c :: rest, isOpen, pending⟩ = (toIntType c, ⟨rest, isOpen, pending⟩) := rfl

theorem sbumpc_closed (pending : List (Segment size)) : (sbumpc ⟨[], false, pending⟩).1 = eof := by
  simp [sbumpc, uflow, underflow]

theorem sbumpc_end : (sbumpc ⟨[], true, ([] : List (Segment size))⟩).1 = eof := by
  simp [sbumpc, uflow, underflow]

theorem sbumpc_lost {segment : Segment size} (lost : segment.first = 255)
    (pending : List (Segment size)) : (sbumpc ⟨[], true, segment :: pending⟩).1 = eof := by
  simp [sbumpc, uflow, underflow, (charToInt_eq_eof_iff _).mpr lost]

theorem sbumpc_segment {segment : Segment size} (read : segment.first ≠ 255)
    (pending : List (Segment size)) :
    sbumpc ⟨[], true, segment :: pending⟩ =
      (toIntType segment.first, ⟨segment.bytes.tail, true, pending⟩) := by
  have more : charToInt segment.first ≠ eof := fun h => read ((charToInt_eq_eof_iff _).mp h)
  simp only [sbumpc, uflow, underflow, Bool.true_eq_false, if_false, if_neg more]
  rw [bytes_eq segment]
  rfl

theorem sbumpc_remaining_lt {b : GetBuffer size} (more : b.sbumpc.1 ≠ eof) :
    b.sbumpc.2.remaining < b.remaining := by
  obtain ⟨here, isOpen, pending⟩ := b
  cases here with
  | cons c rest => simp [remaining]
  | nil =>
      cases isOpen with
      | false => exact absurd (sbumpc_closed pending) more
      | true =>
          cases pending with
          | nil => exact absurd sbumpc_end more
          | cons segment pending =>
              have read : segment.first ≠ 255 := fun lost => more (sbumpc_lost lost pending)
              have bytes := congrArg List.length (bytes_eq segment)
              rw [sbumpc_segment read]
              simp only [remaining, List.length_nil, List.flatMap_cons, List.length_append]
              simp only [List.length_cons] at bytes
              omega

/-- Extraction character by character until the end of the file: `while (in.get(c)) text += c;` -/
def extract (b : GetBuffer size) : List UInt8 :=
  if b.sbumpc.1 = eof then [] else toCharType b.sbumpc.1 :: b.sbumpc.2.extract
termination_by b.remaining
decreasing_by exact sbumpc_remaining_lt ‹_›

theorem sgetc_bump {b : GetBuffer size} (more : b.sgetc.1 ≠ eof) :
    b.sgetc.2.getArea ≠ [] ∧ b.sgetc.2.remaining = b.remaining := by
  obtain ⟨here, isOpen, pending⟩ := b
  cases here with
  | cons c rest => simp [sgetc]
  | nil =>
      cases isOpen with
      | false => simp [sgetc, underflow] at more
      | true =>
          cases pending with
          | nil => simp [sgetc, underflow] at more
          | cons segment pending => simp [sgetc, underflow, remaining, segment.nonempty]

theorem bump_of_getArea {b : GetBuffer size} (here : b.getArea ≠ []) : b.sbumpc.1 ≠ eof := by
  obtain ⟨getArea, isOpen, pending⟩ := b
  cases getArea with
  | nil => exact absurd rfl here
  | cons c rest => exact toIntType_ne_eof c

/-- Extraction by looking before taking, as `std::getline` does: `c = sgetc()`, and as long as it is
not the end of the file append it and go on with `snextc()`, which is `sbumpc()` and then `sgetc()`. -/
def extractPeeking (b : GetBuffer size) : List UInt8 :=
  if b.sgetc.1 = eof then []
  else toCharType b.sgetc.1 ::
    (if b.sgetc.2.sbumpc.1 = eof then [] else b.sgetc.2.sbumpc.2.extractPeeking)
termination_by b.remaining
decreasing_by
  have sought := sgetc_bump ‹_›
  have next := sbumpc_remaining_lt (bump_of_getArea sought.1)
  omega

/-- How a reader of the stream sees an open buffer: it takes the characters of the get area in order
and then a new segment, unless `underflow` reports the end of the file. -/
structure Extraction (read : GetBuffer size → List UInt8) : Prop where
  character : ∀ c rest pending, read ⟨c :: rest, true, pending⟩ = c :: read ⟨rest, true, pending⟩
  finished : read ⟨[], true, []⟩ = []
  refilled : ∀ segment pending, segment.first ≠ 255 →
    read ⟨[], true, segment :: pending⟩ = read ⟨segment.bytes, true, pending⟩
  lost : ∀ segment pending, segment.first = 255 → read ⟨[], true, segment :: pending⟩ = []

theorem extract_cons (c : UInt8) (rest : List UInt8) (isOpen : Bool)
    (pending : List (Segment size)) :
    extract ⟨c :: rest, isOpen, pending⟩ = c :: extract ⟨rest, isOpen, pending⟩ := by
  rw [extract]
  simp [toIntType_ne_eof]

theorem extraction_extract : Extraction (extract : GetBuffer size → List UInt8) where
  character := fun c rest pending => extract_cons c rest true pending
  finished := by rw [extract, if_pos sbumpc_end]
  refilled := by
    intro segment pending read
    have text : extract ⟨[], true, segment :: pending⟩ =
        segment.first :: extract ⟨segment.bytes.tail, true, pending⟩ := by
      rw [extract, sbumpc_segment read]
      simp [toIntType_ne_eof]
    rw [text, ← extract_cons, ← bytes_eq]
  lost := by
    intro segment pending lost
    rw [extract, if_pos (sbumpc_lost lost pending)]

theorem sgetc_segment (segment : Segment size) (pending : List (Segment size)) :
    sgetc ⟨[], true, segment :: pending⟩ =
      (charToInt segment.first, ⟨segment.first :: segment.bytes.tail, true, pending⟩) := by
  rw [← bytes_eq]
  rfl

theorem extractPeeking_cons (c : UInt8) (rest : List UInt8) (isOpen : Bool)
    (pending : List (Segment size)) :
    extractPeeking ⟨c :: rest, isOpen, pending⟩ = c :: extractPeeking ⟨rest, isOpen, pending⟩ := by
  rw [extractPeeking]
  simp [sgetc, toIntType_ne_eof]

theorem extraction_extractPeeking :
    Extraction (extractPeeking : GetBuffer size → List UInt8) where
  character := fun c rest pending => extractPeeking_cons c rest true pending
  finished := by
    rw [extractPeeking, if_pos]
    rfl
  refilled := by
    intro segment pending read
    have more : charToInt segment.first ≠ eof := fun h => read ((charToInt_eq_eof_iff _).mp h)
    have text : extractPeeking ⟨[], true, segment :: pending⟩ =
        segment.first :: extractPeeking ⟨segment.bytes.tail, true, pending⟩ := by
      rw [extractPeeking, sgetc_segment]
      simp [more, toIntType_ne_eof]
    rw [text, ← extractPeeking_cons, ← bytes_eq]
  lost := by
    intro segment pending lost
    rw [extractPeeking, if_pos]
    rw [sgetc_segment]
    exact (charToInt_eq_eof_iff _).mpr lost

namespace Extraction

variable {read : GetBuffer size → List UInt8}

theorem getArea (reader : Extraction read) (getArea : List UInt8) (pending : List (Segment size)) :
    read ⟨getArea, true, pending⟩ = getArea ++ read ⟨[], true, pending⟩ := by
  induction getArea with
  | nil => rfl
  | cons c rest ih => rw [reader.character, ih, List.cons_append]

/-- The text is what was sent if and only if no segment begins with the character 255. -/
theorem connect_iff (reader : Extraction read) (segments : List (Segment size)) :
    read (connect segments) = segments.flatMap (·.bytes) ↔
      ∀ segment ∈ segments, segment.first ≠ 255 := by
  induction segments with
  | nil => simpa [connect] using reader.finished
  | cons segment segments ih =>
      by_cases lost : segment.first = 255
      · have text : read (connect (segment :: segments)) = [] := reader.lost segment segments lost
        rw [text]
        simp [lost, segment.nonempty]
      · have text : read (connect (segment :: segments)) =
            segment.bytes ++ read (connect segments) :=
          (reader.refilled segment segments lost).trans (reader.getArea segment.bytes segments)
        rw [text, List.flatMap_cons, List.append_right_inj, ih]
        simp [lost]

end Extraction

/-- Both ways of extracting the text until the end of the file give the bytes that the peer sent if
and only if no `read` came back with 255 as its first byte. -/
theorem extracted_iff (segments : List (Segment size)) :
    ((connect segments).extract = segments.flatMap (·.bytes) ↔
        ∀ segment ∈ segments, segment.first ≠ 255) ∧
      ((connect segments).extractPeeking = segments.flatMap (·.bytes) ↔
        ∀ segment ∈ segments, segment.first ≠ 255) :=
  ⟨extraction_extract.connect_iff segments, extraction_extractPeeking.connect_iff segments⟩

/-- The same three bytes as one segment and as two, the second of which begins with 255. -/
def oneSegment : List (Segment 8) := [⟨[104, 255, 105], List.cons_ne_nil _ _, Nat.le_add_left 3 5⟩]

def twoSegments : List (Segment 8) :=
  [⟨[104], List.cons_ne_nil _ _, Nat.le_add_left 1 7⟩,
    ⟨[255, 105], List.cons_ne_nil _ _, Nat.le_add_left 2 6⟩]

theorem twoSegments_lose_text :
    twoSegments.flatMap (·.bytes) = oneSegment.flatMap (·.bytes) ∧
      (connect oneSegment).extract = [104, 255, 105] ∧
      (connect twoSegments).extract = [104] ∧
      (connect twoSegments).extract ≠ twoSegments.flatMap (·.bytes) := by
  have whole : (connect oneSegment).extract = [104, 255, 105] :=
    (extraction_extract.connect_iff oneSegment).mpr (by decide)
  have cut : (connect twoSegments).extract = [104] := by
    simp only [connect, twoSegments]
    rw [extraction_extract.refilled _ _ (by decide), extraction_extract.getArea,
      extraction_extract.lost _ _ (by decide)]
    rfl
  refine ⟨rfl, whole, cut, ?_⟩
  rw [cut]
  decide

end GetBuffer

end Pcm
