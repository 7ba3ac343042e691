import Mathlib.Data.BitVec
import Mathlib.Tactic.Ring

/-!
# Fields of a word

A field is a run of neighbouring bits. What is read from it after a write is the value written, cut to the
field's width; a write to it leaves every bit outside, and so every disjoint field. After a sequence of
writes to pairwise disjoint fields each field has its last value.
-/

namespace Pcm.BitFields

variable {n : Nat}

/-- The lowest `width` bits of a word of `n` bits. -/
def lowBits (n width : Nat) : BitVec n := BitVec.ofNat n (2 ^ width - 1)

structure Field where
  position : Nat
  width : Nat
  deriving DecidableEq, Repr

namespace Field

def covers (f : Field) (i : Nat) : Bool := decide (f.position ≤ i ∧ i < f.position + f.width)

def get (f : Field) (x : BitVec n) : BitVec n := (x >>> f.position) &&& lowBits n f.width

def set (f : Field) (x v : BitVec n) : BitVec n :=
  (x &&& ~~~(lowBits n f.width <<< f.position)) ||| ((v &&& lowBits n f.width) <<< f.position)

def Disjoint (f g : Field) : Prop :=
  f.position + f.width ≤ g.position ∨ g.position + g.width ≤ f.position

instance (f g : Field) : Decidable (f.Disjoint g) := inferInstanceAs (Decidable (_ ∨ _))

theorem Disjoint.symm {f g : Field} (disjoint : f.Disjoint g) : g.Disjoint f := Or.symm disjoint

end Field

variable {f g : Field} {x v w : BitVec n} {i : Nat}

/-! ## One bit -/

theorem getLsbD_lowBits (n width i : Nat) :
    (lowBits n width).getLsbD i = (decide (i < n) && decide (i < width)) := by
  rw [lowBits, BitVec.getLsbD_ofNat, Nat.testBit_two_pow_sub_one]

theorem getLsbD_get (f : Field) (x : BitVec n) (i : Nat) :
    (f.get x).getLsbD i = (decide (i < f.width) && x.getLsbD (f.position + i)) := by
  simp only [Field.get, BitVec.getLsbD_and, BitVec.getLsbD_ushiftRight, getLsbD_lowBits]
  by_cases inside : i < n
  · simp [inside, Bool.and_comm]
  · rw [BitVec.getLsbD_of_ge x _ (by omega)]
    simp

theorem getLsbD_set (f : Field) (x v : BitVec n) (inside : i < n) :
    (f.set x v).getLsbD i = if f.covers i then v.getLsbD (i - f.position) else x.getLsbD i := by
  simp only [Field.set, Field.covers, BitVec.getLsbD_or, BitVec.getLsbD_and, BitVec.getLsbD_not,
    BitVec.getLsbD_shiftLeft, getLsbD_lowBits, inside, decide_true, Bool.true_and,
    decide_eq_true_eq]
  by_cases before : i < f.position
  · rw [if_neg (by omega)]
    simp [before]
  · have shifted : i - f.position < n := by omega
    by_cases covered : i - f.position < f.width
    · rw [if_pos (by omega)]
      simp [before, covered, shifted]
    · rw [if_neg (by omega)]
      simp [before, covered]

theorem getLsbD_set_of_outside (x v : BitVec n) (outside : f.covers i = false) :
    (f.set x v).getLsbD i = x.getLsbD i := by
  by_cases inside : i < n
  · rw [getLsbD_set f x v inside, outside]
    rfl
  · rw [BitVec.getLsbD_of_ge _ _ (by omega), BitVec.getLsbD_of_ge _ _ (by omega)]

theorem covers_of_disjoint (disjoint : f.Disjoint g) (covered : f.covers i = true) : g.covers i = false := by
  simp only [Field.covers, decide_eq_true_eq, decide_eq_false_iff_not] at covered ⊢
  rcases disjoint with before | behind
  · omega
  · omega

/-! ## One field -/

theorem and_lowBits_toNat (v : BitVec n) (width : Nat) :
    (v &&& lowBits n width).toNat = v.toNat % 2 ^ width := by
  apply Nat.eq_of_testBit_eq
  intro i
  rw [Nat.testBit_mod_two_pow]
  show (v &&& lowBits n width).getLsbD i = (decide (i < width) && v.getLsbD i)
  rw [BitVec.getLsbD_and, getLsbD_lowBits]
  by_cases inside : i < n
  · simp [inside, Bool.and_comm]
  · rw [BitVec.getLsbD_of_ge v i (by omega)]
    simp

/-- A field is the quotient by its position, modulo its width. -/
theorem get_toNat (f : Field) (x : BitVec n) : (f.get x).toNat = x.toNat / 2 ^ f.position % 2 ^ f.width := by
  rw [Field.get, and_lowBits_toNat, BitVec.toNat_ushiftRight, Nat.shiftRight_eq_div_pow]

theorem get_set_self (fits : f.position + f.width ≤ n) (x v : BitVec n) :
    f.get (f.set x v) = v &&& lowBits n f.width := by
  apply BitVec.eq_of_getLsbD_eq
  intro i inside
  rw [getLsbD_get, BitVec.getLsbD_and, getLsbD_lowBits]
  by_cases within : i < f.width
  · have covered : f.covers (f.position + i) = true := by simp [Field.covers, within]
    rw [getLsbD_set f x v (by omega), if_pos covered, Nat.add_sub_cancel_left]
    simp [within, inside]
  · simp [within]

theorem get_set_of_disjoint (disjoint : f.Disjoint g) (x v : BitVec n) : g.get (f.set x v) = g.get x := by
  apply BitVec.eq_of_getLsbD_eq
  intro i inside
  rw [getLsbD_get, getLsbD_get]
  by_cases within : i < g.width
  · have covered : g.covers (g.position + i) = true := by simp [Field.covers, within]
    rw [getLsbD_set_of_outside x v (covers_of_disjoint disjoint.symm covered)]
  · simp [within]

theorem set_comm (disjoint : f.Disjoint g) (x v w : BitVec n) :
    g.set (f.set x v) w = f.set (g.set x w) v := by
  apply BitVec.eq_of_getLsbD_eq
  intro i inside
  rw [getLsbD_set g (f.set x v) w inside, getLsbD_set f (g.set x w) v inside,
    getLsbD_set f x v inside, getLsbD_set g x w inside]
  by_cases covered : f.covers i
  · rw [if_neg (by simp [covers_of_disjoint disjoint covered]), if_pos covered, if_pos covered]
  · rw [if_neg covered, if_neg covered]

theorem set_of_empty (empty : f.width = 0) (x v : BitVec n) : f.set x v = x := by
  apply BitVec.eq_of_getLsbD_eq
  intro i _
  apply getLsbD_set_of_outside
  simp only [Field.covers, decide_eq_false_iff_not]
  omega

theorem and_lowBits_of_lt {width : Nat} (below : x.toNat < 2 ^ width) : x &&& lowBits n width = x := by
  apply BitVec.eq_of_toNat_eq
  rw [and_lowBits_toNat, Nat.mod_eq_of_lt below]

/-- A write leaves the bits from some place on clear, if the field ends there. -/
theorem set_toNat_lt {width : Nat} (ends : f.position + f.width ≤ width) (below : x.toNat < 2 ^ width)
    (v : BitVec n) : (f.set x v).toNat < 2 ^ width := by
  apply Nat.lt_pow_two_of_testBit
  intro i behind
  show (f.set x v).getLsbD i = false
  have outside : f.covers i = false := by
    simp only [Field.covers, decide_eq_false_iff_not]
    omega
  rw [getLsbD_set_of_outside x v outside, BitVec.getLsbD]
  exact Nat.testBit_lt_two_pow (below.trans_le (Nat.pow_le_pow_right (by omega) behind))

/-! ## Sequences of writes -/

variable {ι α : Type}

def writeAll (field : ι → Field) (x : BitVec n) (writes : List (ι × BitVec n)) : BitVec n :=
  writes.foldl (fun x write => (field write.1).set x write.2) x

/-- The last value for `i`. -/
def last [DecidableEq ι] (i : ι) : List (ι × α) → Option α
  | [] => none
  | (j, v) :: rest => (last i rest).or (if j = i then some v else none)

/-- What a field has after the writes, if it had `initial` before them. -/
def written [DecidableEq ι] (field : ι → Field) (i : ι) (writes : List (ι × BitVec n)) (initial : BitVec n) :
    BitVec n :=
  ((last i writes).map (fun v => v &&& lowBits n (field i).width)).getD initial

section Sequences

variable {field : ι → Field}

@[simp] theorem writeAll_nil (field : ι → Field) (x : BitVec n) : writeAll field x [] = x := rfl

@[simp] theorem writeAll_cons (field : ι → Field) (x : BitVec n) (write : ι × BitVec n)
    (rest : List (ι × BitVec n)) :
    writeAll field x (write :: rest) = writeAll field ((field write.1).set x write.2) rest := rfl

theorem get_writeAll [DecidableEq ι] (i : ι) (disjoint : ∀ j, j ≠ i → (field j).Disjoint (field i))
    (fits : (field i).position + (field i).width ≤ n) (writes : List (ι × BitVec n)) (x : BitVec n) :
    (field i).get (writeAll field x writes) = written field i writes ((field i).get x) := by
  induction writes generalizing x with
  | nil => rfl
  | cons write rest ih =>
      obtain ⟨j, v⟩ := write
      rw [writeAll_cons, ih, written, written, last]
      cases later : last i rest with
      | some w => rfl
      | none =>
          by_cases same : j = i
          · subst same
            simpa using get_set_self fits x v
          · simpa [same] using get_set_of_disjoint (disjoint j same) x v

theorem getLsbD_writeAll_of_outside {b : Nat} (outside : ∀ i, (field i).covers b = false)
    (writes : List (ι × BitVec n)) (x : BitVec n) : (writeAll field x writes).getLsbD b = x.getLsbD b := by
  induction writes generalizing x with
  | nil => rfl
  | cons write rest ih => rw [writeAll_cons, ih, getLsbD_set_of_outside x _ (outside write.1)]

end Sequences

/-! ## Packing -/

/-- Values side by side, the first at the lowest bits, each with its width. -/
def packed : List (Nat × Nat) → Nat
  | [] => 0
  | (width, v) :: rest => v % 2 ^ width + 2 ^ width * packed rest

/-- The parts of a number with these widths, from the lowest bits on. -/
def slices (x : Nat) : List Nat → List (Nat × Nat)
  | [] => []
  | width :: rest => (width, x) :: slices (x / 2 ^ width) rest

theorem packed_slices {widths : List Nat} {x : Nat} (below : x < 2 ^ widths.sum) :
    packed (slices x widths) = x := by
  induction widths generalizing x with
  | nil => simpa [slices, packed, eq_comm] using below
  | cons width rest ih =>
      have quotient : x / 2 ^ width < 2 ^ rest.sum := by
        apply Nat.div_lt_of_lt_mul
        rwa [← Nat.pow_add, ← List.sum_cons]
      rw [slices, packed, ih quotient, Nat.mod_add_div]

end Pcm.BitFields
