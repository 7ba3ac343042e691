import Mathlib.Data.BitVec
import Mathlib.Tactic.Ring

/-!
# Bit fields of register words

`build_bit` and `extract_bits` (`types.h:1609-1652`), with which PCM takes counter values and
status bits out of register words, and their siblings for 32-bit words (`types.h:1564-1607`).
-/

namespace Pcm

/-- `build_bit` (`types.h:1609-1626`). -/
def buildBit (beg fin : Nat) : BitVec 64 :=
  let fin := if fin > 63 then 63 else fin
  let myll : BitVec 64 := if fin = 63 then -1 else (1#64 <<< (fin + 1)) - 1
  myll >>> beg

/-- `extract_bits` (`types.h:1628-1647`); the caller may give the two positions in any order. -/
def extractBits (myin : BitVec 64) (beg fin : Nat) : BitVec 64 :=
  let beg1 := if beg ≤ fin then beg else fin
  let end1 := if beg ≤ fin then fin else beg
  (myin >>> beg1) &&& buildBit beg1 end1

/-- `build_bit_ui` (`types.h:1564-1586`). -/
def buildBitUi (beg fin : BitVec 32) : BitVec 32 :=
  let fin := if 31 < fin then 31 else fin
  if 31 < beg then 0
  else (if fin = 31 then -1 else (1#32 <<< (fin + 1)) - 1) >>> beg

/-- `extract_bits_32` (`types.h:1588-1607`). -/
def extractBits32 (myin beg fin : BitVec 32) : BitVec 32 :=
  let beg1 := if beg ≤ fin then beg else fin
  let end1 := if beg ≤ fin then fin else beg
  (myin >>> beg1) &&& buildBitUi beg1 end1

theorem one_shiftLeft_toNat {n : Nat} (h : n < 64) : (1#64 <<< n).toNat = 2 ^ n := by
  have below : 2 ^ n < 2 ^ 64 := Nat.pow_lt_pow_right (by omega) h
  rw [BitVec.toNat_shiftLeft, BitVec.toNat_ofNat, Nat.shiftLeft_eq, Nat.mod_eq_of_lt (by omega),
    Nat.one_mul]

/-- Dividing a number of ones by a power drops that many of them. -/
theorem pred_mul_div {a : Nat} (pos : 0 < a) (b : Nat) : (a * b - 1) / a = b - 1 := by
  cases b with
  | zero => simp
  | succ b =>
      have split : a * (b + 1) - 1 = a * b + (a - 1) := by
        rw [Nat.mul_succ]
        omega
      rw [split, Nat.mul_add_div pos, Nat.div_eq_of_lt (by omega)]
      omega

theorem buildBit_toNat {beg fin : Nat} (order : beg ≤ fin) (small : fin ≤ 63) :
    (buildBit beg fin).toNat = 2 ^ (fin - beg + 1) - 1 := by
  have mask : ((if fin = 63 then -1 else (1#64 <<< (fin + 1)) - 1 : BitVec 64)).toNat =
      2 ^ (fin + 1) - 1 := by
    split
    · subst fin; rfl
    · have shifted := one_shiftLeft_toNat (n := fin + 1) (by omega)
      have pos : 0 < 2 ^ (fin + 1) := Nat.two_pow_pos _
      rw [BitVec.toNat_sub_of_le (by rw [BitVec.le_def, shifted]; exact pos), shifted]
      rfl
  simp only [buildBit, if_neg (Nat.not_lt.mpr small), BitVec.toNat_ushiftRight, mask,
    Nat.shiftRight_eq_div_pow]
  have split : 2 ^ (fin + 1) = 2 ^ beg * 2 ^ (fin - beg + 1) := by
    rw [← Nat.pow_add]
    congr 1
    omega
  rw [split, pred_mul_div (Nat.two_pow_pos beg)]

/-- A field is the quotient by its position, modulo its width. -/
theorem extractBits_toNat (x : BitVec 64) {beg fin : Nat} (order : beg ≤ fin) (small : fin ≤ 63) :
    (extractBits x beg fin).toNat = x.toNat / 2 ^ beg % 2 ^ (fin - beg + 1) := by
  simp only [extractBits, if_pos order, BitVec.toNat_and, BitVec.toNat_ushiftRight,
    buildBit_toNat order small, Nat.shiftRight_eq_div_pow, Nat.and_two_pow_sub_one_eq_mod]

/-- The lowest `w` bits. -/
theorem extractBits_low (x : BitVec 64) {w : Nat} (pos : 0 < w) (small : w ≤ 64) :
    extractBits x 0 (w - 1) = BitVec.ofNat 64 (x.toNat % 2 ^ w) := by
  apply BitVec.eq_of_toNat_eq
  have below : x.toNat % 2 ^ w < 2 ^ 64 := (Nat.mod_le _ _).trans_lt x.isLt
  rw [extractBits_toNat x (Nat.zero_le _) (by omega), BitVec.toNat_ofNat, Nat.mod_eq_of_lt below]
  simp only [Nat.pow_zero, Nat.div_one]
  congr 2
  omega

/-- A single bit. -/
theorem extractBits_bit (x : BitVec 64) {i : Nat} (small : i ≤ 63) :
    extractBits x i i = if x.getLsbD i then 1 else 0 := by
  apply BitVec.eq_of_toNat_eq
  rw [extractBits_toNat x (le_refl i) small, Nat.sub_self, Nat.pow_one, BitVec.getLsbD,
    Nat.testBit_eq_decide_div_mod_eq]
  rcases Nat.mod_two_eq_zero_or_one (x.toNat / 2 ^ i) with h | h
  · simp [h]
  · simp [h]

theorem buildBitUi_toNat {beg fin : BitVec 32} (order : beg.toNat ≤ fin.toNat)
    (small : fin.toNat ≤ 31) :
    (buildBitUi beg fin).toNat = 2 ^ (fin.toNat - beg.toNat + 1) - 1 := by
  have inside : ¬ 31 < fin := by
    rw [BitVec.lt_def]
    exact Nat.not_lt.mpr small
  have begins : ¬ 31 < beg := by
    rw [BitVec.lt_def]
    exact Nat.not_lt.mpr (order.trans small)
  have mask : (if fin = 31 then -1 else (1#32 <<< (fin + 1)) - 1 : BitVec 32).toNat =
      2 ^ (fin.toNat + 1) - 1 := by
    split
    · next last => subst last; rfl
    · next other =>
        have below : fin.toNat < 31 := by
          have ne : fin.toNat ≠ (31#32).toNat := fun same => other (BitVec.eq_of_toNat_eq same)
          have value : (31#32).toNat = 31 := rfl
          omega
        have next : (fin + 1).toNat = fin.toNat + 1 := by
          rw [BitVec.toNat_add, show (1 : BitVec 32).toNat = 1 from rfl, Nat.mod_eq_of_lt (by omega)]
        have power : 2 ^ (fin.toNat + 1) < 2 ^ 32 := Nat.pow_lt_pow_right (by omega) (by omega)
        have shifted : (1#32 <<< (fin + 1)).toNat = 2 ^ (fin.toNat + 1) := by
          rw [BitVec.shiftLeft_eq', BitVec.toNat_shiftLeft, next, BitVec.toNat_ofNat,
            Nat.shiftLeft_eq, Nat.mod_eq_of_lt (by omega), Nat.one_mul]
        have pos : 0 < 2 ^ (fin.toNat + 1) := Nat.two_pow_pos _
        rw [BitVec.toNat_sub_of_le (by rw [BitVec.le_def, shifted]; exact pos), shifted]
        rfl
  simp only [buildBitUi, if_neg inside, if_neg begins]
  rw [BitVec.ushiftRight_eq', BitVec.toNat_ushiftRight, mask, Nat.shiftRight_eq_div_pow]
  have split : 2 ^ (fin.toNat + 1) = 2 ^ beg.toNat * 2 ^ (fin.toNat - beg.toNat + 1) := by
    rw [← Nat.pow_add]
    congr 1
    omega
  rw [split, pred_mul_div (Nat.two_pow_pos beg.toNat)]

theorem extractBits32_toNat (x : BitVec 32) {beg fin : BitVec 32}
    (order : beg.toNat ≤ fin.toNat) (small : fin.toNat ≤ 31) :
    (extractBits32 x beg fin).toNat =
      x.toNat / 2 ^ beg.toNat % 2 ^ (fin.toNat - beg.toNat + 1) := by
  simp only [extractBits32, if_pos (BitVec.le_def.mpr order)]
  rw [BitVec.toNat_and, BitVec.ushiftRight_eq', BitVec.toNat_ushiftRight,
    buildBitUi_toNat order small, Nat.shiftRight_eq_div_pow, Nat.and_two_pow_sub_one_eq_mod]

/-- The positions in the other order. -/
theorem extractBits32_comm (x : BitVec 32) {beg fin : BitVec 32} (order : fin < beg) :
    extractBits32 x beg fin = extractBits32 x fin beg := by
  have behind : ¬ beg ≤ fin := BitVec.not_le.mpr order
  have before : fin ≤ beg := BitVec.le_of_lt order
  simp only [extractBits32, if_neg behind, if_pos before]

/-- An end behind the word counts as its last bit. -/
theorem extractBits32_all (x : BitVec 32) : extractBits32 x 0 (-1) = x := by
  have order : (0 : BitVec 32) ≤ -1 := by decide
  have mask : buildBitUi 0 (-1) = -1 := by decide
  simp only [extractBits32, if_pos order, mask]
  have ones : (-1 : BitVec 32) = BitVec.allOnes 32 := rfl
  rw [BitVec.ushiftRight_eq', ones, BitVec.and_allOnes]
  exact BitVec.ushiftRight_zero x

/-! ## Inserting bits -/

/-- `insertBits` (`utils.h:658-664`) -/
def insertBits (input value : BitVec 64) (position width : Nat) : BitVec 64 :=
  let mask := if width = 64 then BitVec.allOnes 64 else (1#64 <<< width) - 1
  (input &&& ~~~(mask <<< position)) ||| ((value &&& mask) <<< position)

theorem getLsbD_insertMask {width : Nat} (small : width ≤ 64) (i : Nat) :
    (if width = 64 then BitVec.allOnes 64 else (1#64 <<< width) - 1).getLsbD i = decide (i < width) := by
  by_cases whole : width = 64
  · rw [if_pos whole, BitVec.getLsbD_allOnes, whole]
  · have below : width < 64 := by omega
    rw [if_neg whole, BitVec.getLsbD, BitVec.toNat_sub, one_shiftLeft_toNat below]
    have positive : 0 < 2 ^ width := Nat.two_pow_pos width
    have bound : 2 ^ width < 2 ^ 64 := Nat.pow_lt_pow_right (by decide) below
    have value : (2 ^ 64 - (1 : BitVec 64).toNat + 2 ^ width) % 2 ^ 64 = 2 ^ width - 1 := by
      rw [show (1 : BitVec 64).toNat = 1 from rfl]
      omega
    rw [value, Nat.testBit_two_pow_sub_one]

/-- A bit of the result comes from the value inside the range, and from the input outside. -/
theorem getLsbD_insertBits (input value : BitVec 64) {position width i : Nat}
    (small : width ≤ 64) (inside : i < 64) :
    (insertBits input value position width).getLsbD i =
      if position ≤ i ∧ i < position + width then value.getLsbD (i - position)
      else input.getLsbD i := by
  have mask := fun i => getLsbD_insertMask small i
  simp only [insertBits, BitVec.getLsbD_or, BitVec.getLsbD_and, BitVec.getLsbD_not,
    BitVec.getLsbD_shiftLeft, mask, inside, decide_true, Bool.true_and]
  by_cases before : i < position
  · rw [if_neg (by omega)]
    simp [before]
  · by_cases covered : i - position < width
    · rw [if_pos (by omega)]
      simp [before, covered]
    · rw [if_neg (by omega)]
      simp [before, covered]

end Pcm
