import Pcm.Bits
import Pcm.Lib.BitFields

/-!
# Reading and writing some bits of a register

`insertBits` and `extract_bits` as writes to and reads of a field of the word, and on top of them the two helpers
with which `pcm-msr`, `pcm-mmio`, `pcm-pcicfg` and `pcm-tpmi` write and print a range of bits of a register of
32 or 64 bits (`utils.h:693-721`).
-/

namespace Pcm

open BitFields

variable {W : Nat}

/-- `readOldValueHelper` (`utils.h:694-708`), for registers of `W` bits: the value to be written to the register;
`readValue` is what reading it gives, `none` if that fails. -/
def readOldValueHelper (bits : Int × Int) (value : BitVec W) (write : Bool) (readValue : Option (BitVec W)) :
    Option (BitVec W) :=
  if 0 ≤ bits.1 ∧ write = true then
    readValue.map fun old_value =>
      (insertBits (old_value.setWidth 64) (value.setWidth 64) bits.1.toNat
        (BitVec.ofInt 64 (bits.2 - bits.1 + 1)).toNat).setWidth W
  else some value

/-- `extractBitsPrintHelper` (`utils.h:710-721`): the value printed. -/
def extractBitsPrintHelper (bits : Int × Int) (value : BitVec W) : BitVec W :=
  if 0 ≤ bits.1 then
    (extractBits (value.setWidth 64) (BitVec.ofInt 32 bits.1).toNat (BitVec.ofInt 32 bits.2).toNat).setWidth W
  else value

/-! ## Ranges of bits are fields -/

/-- The bits from `beg` to `fin`. -/
def bitRange (beg fin : Nat) : Field := ⟨beg, fin - beg + 1⟩

theorem insertMask_eq {width : Nat} (small : width ≤ 64) :
    (if width = 64 then BitVec.allOnes 64 else (1#64 <<< width) - 1) = lowBits 64 width := by
  apply BitVec.eq_of_getLsbD_eq
  intro i inside
  rw [getLsbD_insertMask small, getLsbD_lowBits]
  simp [inside]

theorem insertBits_eq_set (x v : BitVec 64) (position : Nat) {width : Nat} (small : width ≤ 64) :
    insertBits x v position width = (⟨position, width⟩ : Field).set x v := by
  simp only [insertBits, insertMask_eq small, Field.set]

theorem extractBits_eq_get (x : BitVec 64) {beg fin : Nat} (order : beg ≤ fin) (small : fin ≤ 63) :
    extractBits x beg fin = (bitRange beg fin).get x := by
  apply BitVec.eq_of_toNat_eq
  rw [extractBits_toNat x order small, get_toNat]
  rfl

/-- The positions in the other order. -/
theorem extractBits_comm (x : BitVec 64) (beg fin : Nat) : extractBits x beg fin = extractBits x fin beg := by
  rcases Nat.lt_trichotomy beg fin with before | rfl | behind
  · simp only [extractBits, if_pos before.le, if_neg (Nat.not_le.mpr before)]
  · rfl
  · simp only [extractBits, if_pos behind.le, if_neg (Nat.not_le.mpr behind)]

theorem extractBits_min_max (x : BitVec 64) (a b : Nat) :
    extractBits x a b = extractBits x (min a b) (max a b) := by
  rcases Nat.le_total a b with order | order
  · rw [Nat.min_eq_left order, Nat.max_eq_right order]
  · rw [Nat.min_eq_right order, Nat.max_eq_left order, extractBits_comm]

theorem extractBits_insertBits (x v : BitVec 64) {p w : Nat} (positive : 1 ≤ w) (fits : p + w ≤ 64) :
    (extractBits (insertBits x v p w) p (p + w - 1)).toNat = v.toNat % 2 ^ w := by
  have range : bitRange p (p + w - 1) = ⟨p, w⟩ := by
    rw [bitRange, Field.mk.injEq]
    omega
  rw [extractBits_eq_get _ (by omega) (by omega), range, insertBits_eq_set x v p (by omega),
    get_set_self fits, and_lowBits_toNat]

theorem extractBits_insertBits_of_disjoint (x v : BitVec 64) {p w a b : Nat} (fits : p + w ≤ 64)
    (small : max a b ≤ 63) (disjoint : max a b < p ∨ p + w ≤ min a b) :
    extractBits (insertBits x v p w) a b = extractBits x a b := by
  have order : min a b ≤ max a b := min_le_max
  have apart : (⟨p, w⟩ : Field).Disjoint (bitRange (min a b) (max a b)) := by
    simp only [Field.Disjoint, bitRange]
    omega
  rw [extractBits_min_max, extractBits_min_max x, extractBits_eq_get _ order small,
    extractBits_eq_get x order small, insertBits_eq_set x v p (by omega), get_set_of_disjoint apart]

/-! ## Writing bits of a register, and reading them back -/

theorem ofInt_toNat {m k : Nat} (small : k < 2 ^ m) : (BitVec.ofInt m k).toNat = k := by
  rw [BitVec.ofInt_natCast, BitVec.toNat_ofNat, Nat.mod_eq_of_lt small]

/-- The register gets the value's lowest bits that have a place in the range and in the register. -/
theorem extract_readOldValue {p w : Nat} (positive : 1 ≤ w) (fits : p + w ≤ 64) (wide : W ≤ 64)
    (old_value value : BitVec W) :
    ∃ stored, readOldValueHelper ((p : Int), (p : Int) + w - 1) value true (some old_value) = some stored ∧
      (extractBitsPrintHelper ((p : Int), (p : Int) + w - 1) stored).toNat = value.toNat % 2 ^ min w (W - p) := by
  have width : (BitVec.ofInt 64 ((p : Int) + w - 1 - p + 1)).toNat = w := by
    rw [show ((p : Int) + w - 1 - p + 1) = (w : Int) by omega]
    exact ofInt_toNat (by omega)
  have first : (BitVec.ofInt 32 (p : Int)).toNat = p := ofInt_toNat (by omega)
  have second : (BitVec.ofInt 32 ((p : Int) + w - 1)).toNat = p + w - 1 := by
    rw [show ((p : Int) + w - 1) = ((p + w - 1 : Nat) : Int) by omega]
    exact ofInt_toNat (by omega)
  have range : bitRange p (p + w - 1) = ⟨p, w⟩ := by
    rw [bitRange, Field.mk.injEq]
    omega
  have start : (0 : Int) ≤ p := Int.natCast_nonneg p
  refine ⟨(insertBits (old_value.setWidth 64) (value.setWidth 64) p w).setWidth W, ?_, ?_⟩
  · simp only [readOldValueHelper, start, true_and, if_true, width, Int.toNat_natCast, Option.map_some]
  · simp only [extractBitsPrintHelper, if_pos start, first, second]
    rw [extractBits_eq_get _ (by omega) (by omega), range, insertBits_eq_set _ _ p (by omega)]
    apply Nat.eq_of_testBit_eq
    intro i
    rw [Nat.testBit_mod_two_pow]
    show (BitVec.setWidth W _).getLsbD i = (decide (i < min w (W - p)) && value.getLsbD i)
    rw [BitVec.getLsbD_setWidth, getLsbD_get, BitVec.getLsbD_setWidth, BitVec.getLsbD_setWidth]
    by_cases kept : i < min w (W - p)
    · have inside : p + i < 64 := by omega
      have covered : (⟨p, w⟩ : Field).covers (p + i) = true := by
        simp only [Field.covers, decide_eq_true_eq]
        omega
      have bit : ((⟨p, w⟩ : Field).set (old_value.setWidth 64) (value.setWidth 64)).getLsbD (p + i) =
          value.getLsbD i := by
        rw [getLsbD_set _ _ _ inside, if_pos covered, Nat.add_sub_cancel_left, BitVec.getLsbD_setWidth]
        simp only [show i < 64 by omega, decide_true, Bool.true_and]
      have places : i < W ∧ i < 64 ∧ i < w ∧ p + i < 64 ∧ p + i < W := by omega
      simp only [bit, kept, places, decide_true, Bool.true_and]
    · have lost : ¬ i < w ∨ ¬ p + i < W := by omega
      rcases lost with behind | behind
      · simp [kept, behind]
      · simp [kept, behind]

/-- A value that does not fit into the range, or a range behind the register's end, is cut. -/
theorem readOldValue_cuts :
    (readOldValueHelper (0, 7) 0x100#64 true (some 0)).map (extractBitsPrintHelper (0, 7)) ≠ some 0x100#64 ∧
      (readOldValueHelper (32, 39) 1#32 true (some 0)).map (extractBitsPrintHelper (32, 39)) ≠ some 1#32 := by
  decide

/-- Insertion and extraction of bits, in words and through the helpers for registers. -/
theorem bits_roundtrip (x v : BitVec 64) {p w : Nat} (positive : 1 ≤ w) (fits : p + w ≤ 64) :
    (extractBits (insertBits x v p w) p (p + w - 1)).toNat = v.toNat % 2 ^ w ∧
    (∀ a b, a ≤ 63 → b ≤ 63 → (max a b < p ∨ p + w ≤ min a b) →
      extractBits (insertBits x v p w) a b = extractBits x a b) ∧
    (∀ a b, a ≤ 63 → b ≤ 63 → extractBits x a b = extractBits x b a ∧
      (extractBits x a b).toNat = x.toNat / 2 ^ min a b % 2 ^ (max a b - min a b + 1)) ∧
    (∀ W, W ≤ 64 → ∀ old_value value : BitVec W,
      ∃ stored, readOldValueHelper ((p : Int), (p : Int) + w - 1) value true (some old_value) = some stored ∧
        (extractBitsPrintHelper ((p : Int), (p : Int) + w - 1) stored).toNat =
          value.toNat % 2 ^ min w (W - p)) := by
  refine ⟨extractBits_insertBits x v positive fits, ?_, ?_, ?_⟩
  · intro a b first second apart
    exact extractBits_insertBits_of_disjoint x v fits (max_le first second) apart
  · intro a b first second
    refine ⟨extractBits_comm x a b, ?_⟩
    rw [extractBits_min_max, extractBits_toNat x min_le_max (max_le first second)]
  · intro W wide old_value value
    exact extract_readOldValue positive fits wide old_value value

/-- The upper byte of a word takes the lower eight bits of the value, and the lower byte stays. -/
theorem bits_roundtrip_upper :
    (extractBits (insertBits 0xAB 0x1FF 56 8) 56 63).toNat = 0xFF ∧
    extractBits (insertBits 0xAB 0x1FF 56 8) 7 0 = extractBits 0xAB 7 0 ∧ (extractBits 0xAB 7 0).toNat = 0xAB ∧
    ∃ stored, readOldValueHelper (56, 63) 0x1FF#64 true (some 0xAB) = some stored ∧
      (extractBitsPrintHelper (56, 63) stored).toNat = 0xFF := by
  obtain ⟨own, others, ordered, registers⟩ :=
    bits_roundtrip 0xAB 0x1FF (by decide : 1 ≤ 8) (by decide : 56 + 8 ≤ 64)
  obtain ⟨stored, read, shown⟩ := registers 64 (by decide) 0xAB 0x1FF
  exact ⟨own, others 7 0 (by decide) (by decide) (.inl (by decide)), (ordered 7 0 (by decide) (by decide)).2, stored,
    read, shown⟩

end Pcm
