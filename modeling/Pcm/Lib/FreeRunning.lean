import Mathlib.Data.BitVec
import Mathlib.Tactic.Ring

/-!
# Free-running counters of a given width

A hardware counter of width `w` shows the true number of events modulo `2 ^ w`. Software
samples it now and then into 64-bit words. This file relates the sampled words to the true
counts: a word is the count minus a whole number of laps, so a difference of words is off by
the laps made in between. Nothing here is about a particular register.
-/

namespace Pcm.FreeRunning

/-- The word a counter of width `w` shows after `t` events. -/
def raw (w t : Nat) : BitVec 64 := BitVec.ofNat 64 (t % 2 ^ w)

/-- How often a counter of width `w` has wrapped around after `t` events. -/
def laps (w t : Nat) : Nat := t / 2 ^ w

theorem raw_toNat {w : Nat} (hw : w ≤ 64) (t : Nat) : (raw w t).toNat = t % 2 ^ w := by
  rw [raw, BitVec.toNat_ofNat]
  apply Nat.mod_eq_of_lt
  calc t % 2 ^ w < 2 ^ w := Nat.mod_lt _ (Nat.two_pow_pos w)
    _ ≤ 2 ^ 64 := Nat.pow_le_pow_right (by omega) hw

/-- The count is what the counter shows plus its laps. -/
theorem ofNat_eq_raw_add (w t : Nat) :
    BitVec.ofNat 64 t = raw w t + BitVec.ofNat 64 (laps w t) * BitVec.ofNat 64 (2 ^ w) := by
  rw [raw, laps, ← BitVec.ofNat_mul, ← BitVec.ofNat_add, Nat.mod_add_div']

theorem laps_mono (w : Nat) {t t' : Nat} (h : t ≤ t') : laps w t ≤ laps w t' :=
  Nat.div_le_div_right h

theorem ofNat_sub_of_le {t t' : Nat} (h : t ≤ t') :
    BitVec.ofNat 64 (t' - t) = BitVec.ofNat 64 t' - BitVec.ofNat 64 t := by
  obtain ⟨d, rfl⟩ := Nat.exists_eq_add_of_le h
  rw [Nat.add_sub_cancel_left, BitVec.ofNat_add]
  ring

/-- A difference of words misses exactly the laps made between the two samples. -/
theorem ofNat_sub_eq (w : Nat) {t t' : Nat} (h : t ≤ t') :
    BitVec.ofNat 64 (t' - t) =
      raw w t' - raw w t + BitVec.ofNat 64 (laps w t' - laps w t) * BitVec.ofNat 64 (2 ^ w) := by
  rw [ofNat_sub_of_le h, ofNat_sub_of_le (laps_mono w h), ofNat_eq_raw_add w t,
    ofNat_eq_raw_add w t']
  ring

/-- Two samples less than one lap apart: the word went down exactly when the counter wrapped,
and then it wrapped once. -/
theorem laps_of_close {w : Nat} (hw : w ≤ 64) {t t' : Nat} (h : t ≤ t') (close : t' < t + 2 ^ w) :
    laps w t' - laps w t = if raw w t' < raw w t then 1 else 0 := by
  have pos : 0 < 2 ^ w := Nat.two_pow_pos w
  have split := Nat.mod_add_div t (2 ^ w)
  have split' := Nat.mod_add_div t' (2 ^ w)
  have below := Nat.mod_lt t pos
  have below' := Nat.mod_lt t' pos
  have mono := laps_mono w h
  have step : laps w t' ≤ laps w t + 1 := by
    have next : laps w (t + 2 ^ w) = laps w t + 1 := Nat.add_div_right t pos
    rw [← next]
    exact laps_mono w close.le
  simp only [BitVec.lt_def, raw_toNat hw]
  unfold laps at *
  rcases Nat.eq_or_lt_of_le mono with same | more
  · rw [← same] at split' ⊢
    rw [if_neg (by omega)]
    omega
  · have one : t' / 2 ^ w = t / 2 ^ w + 1 := by omega
    rw [one, Nat.mul_add, Nat.mul_one] at split'
    rw [if_pos (by omega)]
    omega

end Pcm.FreeRunning
