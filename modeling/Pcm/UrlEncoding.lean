import Pcm.HttpUrl

/-!
# Percent coding

`URL::percentEncode` and `URL::percentDecode` (`pcm-sensor-server.cpp:1988-2022`). The encoder fills an escape
to its width with blanks, as a stream does by default, so that a byte below 16 gets an escape that the decoder
refuses.
-/

namespace Pcm.Http

open StdString

namespace URL

/-- `isalnum` -/
def isalnum (c : UInt8) : Bool := isdigit c || (65 ≤ c && c ≤ 90) || (97 ≤ c && c ≤ 122)

/-- The characters that stay as they are: letters, digits and `-`, `_`, `.`, `~`. -/
def isUnreserved (c : UInt8) : Bool := isalnum c || c = 45 || c = 95 || c = 46 || c = 126

/-- An upper case hexadecimal digit. -/
def hexDigit (n : Nat) : UInt8 := if n < 10 then UInt8.ofNat (48 + n) else UInt8.ofNat (55 + n)

/-- What `std::uppercase << std::hex` writes for a number below 256. -/
def hexDigits (n : Nat) : Bytes := if n < 16 then [hexDigit n] else [hexDigit (n / 16), hexDigit (n % 16)]

/-- `std::setw(width)`, with the fill character of a new stream. -/
def setw (width : Nat) (text : Bytes) : Bytes := List.replicate (width - text.length) 32 ++ text

def percentEncodeChar (c : UInt8) : Bytes :=
  if isUnreserved c then [c] else 37 :: setw 2 (hexDigits c.toNat)

/-- `percentEncode` (`pcm-sensor-server.cpp:1989-2000`) -/
def percentEncode (s : Bytes) : Bytes := s.flatMap percentEncodeChar

/-! ## Characters -/

theorem charToNumber_hexDigit : ∀ n < 16, charToNumber (hexDigit n) = .ok n := by decide

/-- The escape of a byte is filled only below 16. -/
theorem percentEncodeChar_of_le {c : UInt8} (reserved : isUnreserved c = false) (high : 16 ≤ c) :
    percentEncodeChar c = [37, hexDigit (c.toNat / 16), hexDigit (c.toNat % 16)] := by
  have large : ¬ c.toNat < 16 := Nat.not_lt.mpr (UInt8.le_iff_toNat_le.mp high)
  simp [percentEncodeChar, reserved, hexDigits, large, setw]

theorem percentEncodeChar_of_lt {c : UInt8} (low : c < 16) :
    percentEncodeChar c = [37, 32, hexDigit c.toNat] := by
  have small : c.toNat < 16 := UInt8.lt_iff_toNat_lt.mp low
  have reserved : isUnreserved c = false := by
    have none : ∀ n < 16, isUnreserved (UInt8.ofNat n) = false := by decide
    simpa using none c.toNat small
  simp [percentEncodeChar, reserved, hexDigits, small, setw]

/-- An unreserved character is not a percent sign. -/
theorem ne_percent_of_isUnreserved {c : UInt8} (unreserved : isUnreserved c = true) : c ≠ 37 := by
  rintro rfl
  exact absurd unreserved (by decide)

theorem percentDecode_cons {c : UInt8} (other : c ≠ 37) (rest : Bytes) :
    percentDecode (c :: rest) = (percentDecode rest).map (c :: ·) := by
  rw [percentDecode.eq_5 c rest (by rintro rfl; exact absurd rfl other) (by rintro _ rfl; exact absurd rfl other)
    (by rintro _ _ _ rfl; exact absurd rfl other)]
  cases percentDecode rest <;> rfl

theorem percentDecode_escape {n m : Nat} (high : n < 16) (low : m < 16) (rest : Bytes) :
    percentDecode (37 :: hexDigit n :: hexDigit m :: rest) =
      (percentDecode rest).map (UInt8.ofNat (n * 16 + m) :: ·) := by
  rw [percentDecode, charToNumber_hexDigit n high, charToNumber_hexDigit m low]
  cases percentDecode rest <;> rfl

/-- One character is decoded to itself, unless it is below 16. -/
theorem percentDecode_encodeChar {c : UInt8} (high : 16 ≤ c) (rest : Bytes) :
    percentDecode (percentEncodeChar c ++ rest) = (percentDecode rest).map (c :: ·) := by
  by_cases unreserved : isUnreserved c = true
  · rw [percentEncodeChar, if_pos unreserved]
    exact percentDecode_cons (ne_percent_of_isUnreserved unreserved) rest
  · have bound : c.toNat < 256 := c.toNat_lt
    rw [percentEncodeChar_of_le (Bool.eq_false_iff.mpr unreserved) high]
    refine (percentDecode_escape (by omega) (by omega) rest).trans ?_
    have same : UInt8.ofNat (c.toNat / 16 * 16 + c.toNat % 16) = c := by
      rw [Nat.div_add_mod']
      exact UInt8.ofNat_toNat
    rw [same]

theorem percentDecode_encodeChar_low {c : UInt8} (low : c < 16) (rest : Bytes) :
    ∃ e, percentDecode (percentEncodeChar c ++ rest) = .error e := by
  rw [percentEncodeChar_of_lt low]
  cases rest with
  | nil => exact ⟨_, rfl⟩
  | cons d rest => exact ⟨_, rfl⟩

/-! ## Texts -/

/-- Decoding goes through the encoding of bytes from 16 on. -/
theorem percentDecode_encode_append {s : Bytes} (high : ∀ c ∈ s, 16 ≤ c) (rest : Bytes) :
    percentDecode (percentEncode s ++ rest) = (percentDecode rest).map (s ++ ·) := by
  induction s with
  | nil =>
      change percentDecode rest = _
      cases percentDecode rest <;> rfl
  | cons c s ih =>
      rw [percentEncode, List.flatMap_cons, List.append_assoc,
        percentDecode_encodeChar (high c List.mem_cons_self)]
      rw [percentEncode] at ih
      rw [ih (fun d member => high d (List.mem_cons_of_mem c member))]
      cases percentDecode rest <;> rfl

theorem percentDecode_encode {s : Bytes} (high : ∀ c ∈ s, 16 ≤ c) : percentDecode (percentEncode s) = .ok s := by
  have whole := percentDecode_encode_append high []
  rw [List.append_nil] at whole
  rw [whole]
  exact congrArg Except.ok (List.append_nil s)

/-- Decoding stops at the first byte below 16. -/
theorem percentDecode_encode_low {s : Bytes} {c : UInt8} (member : c ∈ s) (low : c < 16) :
    ∃ e, percentDecode (percentEncode s) = .error e := by
  induction s with
  | nil => cases member
  | cons d s ih =>
      rw [percentEncode, List.flatMap_cons]
      by_cases lowD : d < 16
      · exact percentDecode_encodeChar_low lowD _
      · have later : c ∈ s := by
          rcases List.mem_cons.mp member with rfl | later
          · exact absurd low lowD
          · exact later
        obtain ⟨e, failed⟩ := ih later
        rw [percentEncode] at failed
        refine ⟨e, ?_⟩
        rw [percentDecode_encodeChar (UInt8.not_lt.mp lowD), failed]
        rfl

/-- What is encoded comes back exactly when it has no byte below 16. -/
theorem percentDecode_percentEncode_iff (s : Bytes) :
    percentDecode (percentEncode s) = .ok s ↔ ∀ c ∈ s, 16 ≤ c := by
  constructor
  · intro back c member
    by_contra small
    obtain ⟨e, failed⟩ := percentDecode_encode_low member (UInt8.not_le.mp small)
    rw [failed] at back
    cases back
  · exact percentDecode_encode

/-- A line feed is written as a blank between the percent sign and its digit. -/
theorem percentDecode_percentEncode_lineFeed :
    percentEncode [10] = ascii "% A" ∧ percentDecode (percentEncode [10]) ≠ .ok [10] := by
  decide

end URL

end Pcm.Http
