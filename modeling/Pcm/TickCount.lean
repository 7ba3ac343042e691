import Mathlib.Data.BitVec

/-!
# Tick counts

`PCM::getTickCount` (`cpucounters.cpp:5560-5564`) gives the value of the time stamp counter in units of time, as
a quotient of 64-bit numbers. The tools and the daemon (`daemon.cpp:450-464`, `586-605`) divide the traffic
between two samples by the difference of two tick counts.
-/

namespace Pcm.TickCount

/-- `getTickCount`, for the nominal frequency and the value of the invariant time stamp counter. -/
def getTickCount (nominalFrequency multiplier tsc : BitVec 64) : BitVec 64 := multiplier * tsc / nominalFrequency

/-- `collectionTimeAfter_ - collectionTimeBefore_` -/
def elapsedTime (collectionTimeBefore collectionTimeAfter : BitVec 64) : BitVec 64 :=
  collectionTimeAfter - collectionTimeBefore

/-- A tick count is the exact quotient, rounded down. -/
def Exact (f m t : BitVec 64) : Prop := (getTickCount f m t).toNat = m.toNat * t.toNat / f.toNat

/-- The tick counts at two times are exact, the later one is not the smaller one, and their difference is less
than one tick off the exact quotient. -/
structure TicksRight (f m t1 t2 : BitVec 64) : Prop where
  before : Exact f m t1
  after : Exact f m t2
  order : (getTickCount f m t1).toNat ≤ (getTickCount f m t2).toNat
  low : f.toNat * (elapsedTime (getTickCount f m t1) (getTickCount f m t2)).toNat <
    m.toNat * (t2.toNat - t1.toNat) + f.toNat
  high : m.toNat * (t2.toNat - t1.toNat) <
    f.toNat * ((elapsedTime (getTickCount f m t1) (getTickCount f m t2)).toNat + 1)

section Ticks

variable {f m t t1 t2 : BitVec 64}

theorem getTickCount_toNat (f m t : BitVec 64) :
    (getTickCount f m t).toNat = m.toNat * t.toNat % 2 ^ 64 / f.toNat := by
  rw [getTickCount, BitVec.toNat_udiv, BitVec.toNat_mul]

/-- A quotient of a number that wrapped around is too small, as the divisor is smaller than what was lost. -/
theorem wrapped_div_iff {x d w : Nat} (pos : 0 < d) (le : d ≤ w) : x % w / d = x / d ↔ x < w := by
  constructor
  · intro same
    by_contra wrapped
    have lost : x % w + d ≤ x := by
      have split := Nat.mod_add_div x w
      have some' : 1 ≤ x / w := (Nat.one_le_div_iff (Nat.lt_of_lt_of_le pos le)).mpr (Nat.not_lt.mp wrapped)
      have least : w * 1 ≤ w * (x / w) := Nat.mul_le_mul_left w some'
      omega
    have more : x % w / d + 1 ≤ x / d := by
      rw [← Nat.add_div_right _ pos]
      exact Nat.div_le_div_right lost
    omega
  · intro small
    rw [Nat.mod_eq_of_lt small]

theorem exact_iff (pos : 0 < f) : Exact f m t ↔ m.toNat * t.toNat < 2 ^ 64 := by
  rw [Exact, getTickCount_toNat]
  exact wrapped_div_iff (BitVec.lt_def.mp pos) (Nat.le_of_lt f.isLt)

/-- The difference of two quotients, rounded down, is less than one off the quotient of the difference. -/
theorem div_sub_div_near {x y d : Nat} (pos : 0 < d) (le : x ≤ y) :
    d * (y / d - x / d) < y - x + d ∧ y - x < d * (y / d - x / d + 1) := by
  have order : x / d ≤ y / d := Nat.div_le_div_right le
  have splitX := Nat.div_add_mod x d
  have splitY := Nat.div_add_mod y d
  have smallX := Nat.mod_lt x pos
  have smallY := Nat.mod_lt y pos
  have product : d * (y / d - x / d) = d * (y / d) - d * (x / d) := Nat.mul_sub d _ _
  have below : d * (x / d) ≤ d * (y / d) := Nat.mul_le_mul_left d order
  rw [Nat.mul_add, Nat.mul_one]
  omega

/-- The tick counts are right exactly when the product at the later time fits into 64 bits. -/
theorem ticksRight_iff (pos : 0 < f) (order : t1 ≤ t2) :
    TicksRight f m t1 t2 ↔ m.toNat * t2.toNat < 2 ^ 64 := by
  constructor
  · exact fun right => (exact_iff pos).mp right.after
  · intro fits
    have le : m.toNat * t1.toNat ≤ m.toNat * t2.toNat := Nat.mul_le_mul_left _ (BitVec.le_def.mp order)
    have before : Exact f m t1 := (exact_iff pos).mpr (Nat.lt_of_le_of_lt le fits)
    have after : Exact f m t2 := (exact_iff pos).mpr fits
    have ordered : (getTickCount f m t1).toNat ≤ (getTickCount f m t2).toNat := by
      rw [before, after]
      exact Nat.div_le_div_right le
    have elapsed : (elapsedTime (getTickCount f m t1) (getTickCount f m t2)).toNat =
        m.toNat * t2.toNat / f.toNat - m.toNat * t1.toNat / f.toNat := by
      rw [elapsedTime, BitVec.toNat_sub_of_le (BitVec.le_def.mpr ordered), before, after]
    obtain ⟨low, high⟩ := div_sub_div_near (BitVec.lt_def.mp pos) le
    rw [← Nat.mul_sub] at low high
    exact ⟨before, after, ordered, by rw [elapsed]; exact low, by rw [elapsed]; exact high⟩

end Ticks

/-- Milliseconds at 2.5 GHz, one second after the start. -/
theorem ticksRight_iff_second :
    TicksRight 2500000000 1000 0 2500000000 ↔ (1000#64).toNat * (2500000000#64).toNat < 2 ^ 64 :=
  ticksRight_iff (by decide) (by decide)

/-- After 85 days the product is 384, and the elapsed time more than 500 million years. -/
theorem not_ticksRight_wrapped :
    getTickCount 2500000000 1000 18446744073709551 = 7378697629 ∧ getTickCount 2500000000 1000 18446744073709552 = 0 ∧
      ¬ TicksRight 2500000000 1000 18446744073709551 18446744073709552 := by
  refine ⟨by decide, by decide, fun right => ?_⟩
  have product : ¬ (1000#64).toNat * (18446744073709552#64).toNat < 2 ^ 64 := by decide
  exact product ((exact_iff (by decide)).mp right.after)

end Pcm.TickCount
