import Mathlib.Data.List.TakeWhile
import Pcm.Lib.StdString

/-!
# Input streams of the C++ standard library

A `std::istream` over a finite sequence of bytes that is followed by the end of the file. Every input
function first constructs a sentry: unless the stream is good it sets `failbit` and nothing else
happens, so that a string to be filled keeps its value.
-/

namespace Pcm

structure IStream where
  unread : Bytes
  eofbit : Bool := false
  failbit : Bool := false
  badbit : Bool := false
  deriving DecidableEq, Repr

namespace IStream

def good (s : IStream) : Bool := !s.eofbit && !s.failbit && !s.badbit

def fail (s : IStream) : Bool := s.failbit || s.badbit

/-- A stream from which nothing has been read yet. -/
def fresh (unread : Bytes) : IStream := { unread := unread }

/-- `std::getline(s, str, delim)`: the new value of `str`, and the stream. -/
def getline (s : IStream) (str : Bytes) (delim : UInt8) : Bytes × IStream :=
  if s.good = false then (str, { s with failbit := true })
  else
    let line := s.unread.takeWhile (· ≠ delim)
    match s.unread.dropWhile (· ≠ delim) with
    | [] => (line, { s with unread := [], eofbit := true, failbit := line.isEmpty })
    | _ :: rest => (line, { s with unread := rest })

/-- `s.read(&str[0], count)` into a string of `count` null characters. -/
def read (s : IStream) (count : Nat) : Bytes × IStream :=
  if s.good = false then (List.replicate count 0, { s with failbit := true })
  else
    let data := s.unread.take count
    let short := decide (data.length < count)
    (data ++ List.replicate (count - data.length) 0,
      { s with unread := s.unread.drop count, eofbit := short, failbit := short })

/-- `s.peek()`, none at the end of the file. -/
def peek (s : IStream) : Option UInt8 × IStream :=
  if s.good = false then (none, { s with failbit := true })
  else match s.unread with
    | [] => (none, { s with eofbit := true })
    | c :: _ => (some c, s)

/-! ## Streams that are not good -/

variable {s : IStream}

theorem good_fresh (unread : Bytes) : (fresh unread).good = true := rfl

theorem eq_fresh_of_good (good : s.good = true) : s = fresh s.unread := by
  obtain ⟨unread, eofbit, failbit, badbit⟩ := s
  simp only [IStream.good, Bool.and_eq_true, Bool.not_eq_true'] at good
  obtain ⟨⟨rfl, rfl⟩, rfl⟩ := good
  rfl

theorem getline_of_not_good (bad : s.good = false) (str : Bytes) (delim : UInt8) :
    s.getline str delim = (str, { s with failbit := true }) := by
  rw [getline, if_pos bad]

theorem read_of_not_good (bad : s.good = false) (count : Nat) :
    s.read count = (List.replicate count 0, { s with failbit := true }) := by
  rw [read, if_pos bad]

theorem peek_of_not_good (bad : s.good = false) : s.peek = (none, { s with failbit := true }) := by
  rw [peek, if_pos bad]

theorem not_good_of_failbit (s : IStream) : ({ s with failbit := true } : IStream).good = false := by
  simp [good]

/-! ## Reading a good stream -/

/-- A line that is ended by the delimiter. -/
theorem getline_line {line rest str : Bytes} {delim : UInt8} (within : delim ∉ line) :
    (fresh (line ++ delim :: rest)).getline str delim = (line, fresh rest) := by
  have all : ∀ c ∈ line, decide (c ≠ delim) = true := by
    intro c member
    exact decide_eq_true (fun equal => within (equal ▸ member))
  have taken : (line ++ delim :: rest).takeWhile (· ≠ delim) = line := by
    rw [List.takeWhile_append_of_pos all]
    simp
  have left : (line ++ delim :: rest).dropWhile (· ≠ delim) = delim :: rest := by
    rw [List.dropWhile_append_of_pos all]
    simp
  simp only [getline, fresh, good, left, taken]
  rfl

/-- A last line that is not. -/
theorem getline_last {line str : Bytes} {delim : UInt8} (within : delim ∉ line) :
    (fresh line).getline str delim =
      (line, { unread := [], eofbit := true, failbit := line.isEmpty }) := by
  have all : ∀ c ∈ line, decide (c ≠ delim) = true := by
    intro c member
    exact decide_eq_true (fun equal => within (equal ▸ member))
  simp only [getline, fresh, good, List.takeWhile_eq_self_iff.mpr all,
    List.dropWhile_eq_nil_iff.mpr all]
  rfl

/-- Every text either has a first line that is ended by the delimiter or is a last line. -/
theorem line_or_last (text : Bytes) (delim : UInt8) :
    (∃ line rest, delim ∉ line ∧ text = line ++ delim :: rest) ∨ delim ∉ text := by
  by_cases within : delim ∈ text
  · obtain ⟨line, rest, equal, before⟩ := List.eq_append_cons_of_mem within
    exact Or.inl ⟨line, rest, before, equal⟩
  · exact Or.inr within

/-- A stream that is still good after a line has given it up to the delimiter. -/
theorem getline_good {line str : Bytes} {delim : UInt8} {after : IStream}
    (result : s.getline str delim = (line, after)) (good : after.good = true) :
    delim ∉ line ∧ s = fresh (line ++ delim :: after.unread) := by
  rcases state : s.good with - | -
  · rw [getline_of_not_good state] at result
    cases result
    rw [not_good_of_failbit] at good
    cases good
  · rw [eq_fresh_of_good state] at result ⊢
    rcases line_or_last s.unread delim with ⟨first, rest, within, text⟩ | within
    · rw [text, getline_line within] at result
      cases result
      exact ⟨within, congrArg fresh text⟩
    · rw [getline_last within] at result
      cases result
      cases good

theorem length_read (s : IStream) (count : Nat) : (s.read count).1.length = count := by
  simp only [read]
  split
  · exact List.length_replicate
  · simp only [List.length_append, List.length_take, List.length_replicate]
    omega

theorem read_whole {data rest : Bytes} :
    (fresh (data ++ rest)).read data.length = (data, fresh rest) := by
  simp [read, fresh, good]

theorem read_short {data : Bytes} {count : Nat} (short : data.length < count) :
    ((fresh data).read count).2 = { unread := [], eofbit := true, failbit := true } := by
  simp [read, fresh, good, short, Nat.le_of_lt short]

theorem peek_cons (c : UInt8) (rest : Bytes) : (fresh (c :: rest)).peek = (some c, fresh (c :: rest)) :=
  rfl

theorem peek_nil : (fresh []).peek = (none, { unread := [], eofbit := true }) := rfl

theorem peek_some {c : UInt8} (seen : s.peek.1 = some c) : ∃ rest, s = fresh (c :: rest) := by
  rcases state : s.good with - | -
  · rw [peek_of_not_good state] at seen
    cases seen
  · rw [eq_fresh_of_good state] at seen ⊢
    rcases unread : s.unread with - | ⟨first, rest⟩
    · rw [unread, peek_nil] at seen
      cases seen
    · rw [unread, peek_cons] at seen
      cases seen
      exact ⟨rest, rfl⟩

/-- Only on a good stream that is not at its end does looking ahead leave the stream good. -/
theorem good_of_peek (good : s.peek.2.good = true) : ∃ c rest, s = fresh (c :: rest) := by
  rcases state : s.good with - | -
  · rw [peek_of_not_good state, not_good_of_failbit] at good
    cases good
  · rw [eq_fresh_of_good state] at good ⊢
    rcases unread : s.unread with - | ⟨first, rest⟩
    · rw [unread, peek_nil] at good
      cases good
    · exact ⟨first, rest, rfl⟩

theorem good_of_peeks (good : s.peek.2.peek.2.good = true) : ∃ c rest, s = fresh (c :: rest) := by
  obtain ⟨_, _, same⟩ := good_of_peek good
  exact good_of_peek (by rw [same, good_fresh])

theorem not_good_peek (bad : s.good = false) : s.peek.2.good = false := by
  rw [peek_of_not_good bad, not_good_of_failbit]

end IStream

end Pcm
