import Mathlib.Data.Nat.Digits.Defs
import Pcm.Lib.StdString

/-!
# Numbers as bytes

Unsigned numbers in the order of a little endian machine.
-/

namespace Pcm

open StdString

/-- An unsigned number, its lowest byte first. -/
def littleEndian (bytes : Bytes) : Nat := Nat.ofDigits 256 (bytes.map UInt8.toNat)

theorem littleEndian_lt (bytes : Bytes) : littleEndian bytes < 256 ^ bytes.length := by
  have digits : ∀ x ∈ bytes.map UInt8.toNat, x < 256 := by
    intro x member
    obtain ⟨b, -, rfl⟩ := List.mem_map.mp member
    exact b.toNat_lt
  have bound := Nat.ofDigits_lt_base_pow_length (by decide : 1 < 256) digits
  rwa [List.length_map] at bound

theorem littleEndian_take_lt (bytes : Bytes) (count : Nat) : littleEndian (bytes.take count) < 256 ^ count :=
  Nat.lt_of_lt_of_le (littleEndian_lt _) (Nat.pow_le_pow_right (by decide) (List.length_take_le count bytes))

end Pcm
