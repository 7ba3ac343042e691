import Pcm.Bits
import Pcm.Lib.BitFields

/-!
# Filters of the accelerator counters

In perf mode the five filters of an accelerator's counter are packed into one word, `config1` of the
counter's event: `wq:32`, `tc:8`, `pg_sz:4`, `xfer_sz:8` and `eng:8` from its lowest bit on
(`cpucounters.cpp:9075-9131`). Each filter register clears its own bits with a mask of 60 bits.
-/

namespace Pcm.Idx

open BitFields

/-- The filter registers of one counter: `config1` of their control register, and each one's `lastValue`. -/
structure Filters where
  config1 : BitVec 64
  lastValue : Nat → BitVec 64

def Filters.init : Filters where
  config1 := 0
  lastValue := fun _ => 0

/-- The `switch` of the assignment. -/
def filterConfig (filterNr : Nat) (val config1 : BitVec 64) : BitVec 64 :=
  if filterNr = 0 then (config1 &&& 0xFFFFFFF00000000) ||| (val &&& 0xFFFFFFFF)
  else if filterNr = 1 then (config1 &&& 0xFFFFF00FFFFFFFF) ||| ((val &&& 0xFF) <<< 32)
  else if filterNr = 2 then (config1 &&& 0xFFFF0FFFFFFFFFF) ||| ((val &&& 0xF) <<< 40)
  else if filterNr = 3 then (config1 &&& 0xFF00FFFFFFFFFFF) ||| ((val &&& 0xFF) <<< 44)
  else if filterNr = 4 then (config1 &&& 0x00FFFFFFFFFFFFF) ||| ((val &&& 0xFF) <<< 52)
  else config1

/-- `IDXPerfVirtualFilterRegister::operator =` (`cpucounters.cpp:9087-9126`) -/
def Filters.assign (s : Filters) (filterNr : Nat) (val : BitVec 64) : Filters where
  config1 := filterConfig filterNr val s.config1
  lastValue := Function.update s.lastValue filterNr val

/-- `IDXPerfVirtualFilterRegister::operator uint64` (`cpucounters.cpp:9127-9130`) -/
def Filters.read (s : Filters) (filterNr : Nat) : BitVec 64 := s.lastValue filterNr

def Filters.run (s : Filters) (writes : List (Nat × BitVec 64)) : Filters :=
  writes.foldl (fun s write => s.assign write.1 write.2) s

/-- `filter_cfg` (`cpucounters.cpp:9091-9099`); there are no bits for other numbers. -/
def filter (filterNr : Nat) : Field :=
  if filterNr = 0 then ⟨0, 32⟩
  else if filterNr = 1 then ⟨32, 8⟩
  else if filterNr = 2 then ⟨40, 4⟩
  else if filterNr = 3 then ⟨44, 8⟩
  else if filterNr = 4 then ⟨52, 8⟩
  else ⟨60, 0⟩

/-! ## The filters do not meet -/

theorem filter_cases (filterNr : Nat) :
    filterNr = 0 ∨ filterNr = 1 ∨ filterNr = 2 ∨ filterNr = 3 ∨ filterNr = 4 ∨ 5 ≤ filterNr := by omega

theorem filter_other {filterNr : Nat} (other : 5 ≤ filterNr) : filter filterNr = ⟨60, 0⟩ := by
  unfold filter
  rw [if_neg (by omega), if_neg (by omega), if_neg (by omega), if_neg (by omega), if_neg (by omega)]

theorem filter_le (filterNr : Nat) : (filter filterNr).position + (filter filterNr).width ≤ 60 := by
  rcases filter_cases filterNr with rfl | rfl | rfl | rfl | rfl | other
  · decide
  · decide
  · decide
  · decide
  · decide
  · rw [filter_other other]
    decide

/-- The filters are in the order of their numbers. -/
theorem filter_before {i j : Nat} (before : i < j) :
    (filter i).position + (filter i).width ≤ (filter j).position := by
  rcases filter_cases j with rfl | rfl | rfl | rfl | rfl | other
  · omega
  · obtain rfl : i = 0 := by omega
    decide
  · obtain rfl | rfl : i = 0 ∨ i = 1 := by omega
    · decide
    · decide
  · obtain rfl | rfl | rfl : i = 0 ∨ i = 1 ∨ i = 2 := by omega
    · decide
    · decide
    · decide
  · obtain rfl | rfl | rfl | rfl : i = 0 ∨ i = 1 ∨ i = 2 ∨ i = 3 := by omega
    · decide
    · decide
    · decide
    · decide
  · rw [filter_other other]
    exact filter_le i

theorem filter_disjoint {i j : Nat} (different : i ≠ j) : (filter i).Disjoint (filter j) := by
  rcases Nat.lt_or_gt_of_ne different with before | behind
  · exact .inl (filter_before before)
  · exact .inr (filter_before behind)

/-! ## A write -/

/-- A mask of 60 bits that spares a field clears the field, and the four bits behind the mask. -/
theorem mask_set (f : Field) (val config1 : BitVec 64) (below : config1.toNat < 2 ^ 60) :
    (config1 &&& (lowBits 64 60 &&& ~~~(lowBits 64 f.width <<< f.position))) |||
      ((val &&& lowBits 64 f.width) <<< f.position) = f.set config1 val := by
  rw [← BitVec.and_assoc, and_lowBits_of_lt below]
  rfl

/-- Each of the five masks clears the filter's bits and no others. -/
theorem filterConfig_eq (filterNr : Nat) (val : BitVec 64) {config1 : BitVec 64} (below : config1.toNat < 2 ^ 60) :
    filterConfig filterNr val config1 = (filter filterNr).set config1 val := by
  rcases filter_cases filterNr with rfl | rfl | rfl | rfl | rfl | other
  · have whole : ((val &&& 0xFFFFFFFF) : BitVec 64) = (val &&& 0xFFFFFFFF) <<< 0 := (BitVec.shiftLeft_zero _).symm
    show (config1 &&& 0xFFFFFFF00000000) ||| (val &&& 0xFFFFFFFF) = _
    rw [whole]
    exact mask_set (filter 0) val config1 below
  · exact mask_set (filter 1) val config1 below
  · exact mask_set (filter 2) val config1 below
  · exact mask_set (filter 3) val config1 below
  · exact mask_set (filter 4) val config1 below
  · rw [filter_other other, set_of_empty rfl]
    unfold filterConfig
    rw [if_neg (by omega), if_neg (by omega), if_neg (by omega), if_neg (by omega), if_neg (by omega)]

/-! ## All writes -/

variable {s : Filters}

/-- The four bits behind the filters stay clear, so a run is a sequence of writes to fields. -/
theorem run_config1 (below : s.config1.toNat < 2 ^ 60) (writes : List (Nat × BitVec 64)) :
    (s.run writes).config1 = writeAll filter s.config1 writes ∧ (s.run writes).config1.toNat < 2 ^ 60 := by
  induction writes generalizing s with
  | nil => exact ⟨rfl, below⟩
  | cons write rest ih =>
      have written : (s.assign write.1 write.2).config1 = (filter write.1).set s.config1 write.2 :=
        filterConfig_eq write.1 write.2 below
      have step : (s.assign write.1 write.2).config1.toNat < 2 ^ 60 := by
        rw [written]
        exact set_toNat_lt (filter_le write.1) below write.2
      obtain ⟨config, bound⟩ := ih step
      rw [written] at config
      exact ⟨config, bound⟩

/-- A register reads as its last value, with all its bits. -/
theorem run_read (s : Filters) (writes : List (Nat × BitVec 64)) (filterNr : Nat) :
    (s.run writes).read filterNr = (last filterNr writes).getD (s.read filterNr) := by
  induction writes generalizing s with
  | nil => rfl
  | cons write rest ih =>
      have rest_run : (s.run (write :: rest)).read filterNr = ((s.assign write.1 write.2).run rest).read filterNr := rfl
      rw [rest_run, ih, last]
      cases later : last filterNr rest with
      | some v => rfl
      | none =>
          by_cases same : write.1 = filterNr
          · simp [same, Filters.read, Filters.assign]
          · simp [same, Filters.read, Filters.assign, Function.update_of_ne (Ne.symm same)]

/-- The part of `config1` for a filter has what its register reads as, cut to the filter's width. -/
theorem config1_filter (writes : List (Nat × BitVec 64)) (filterNr : Nat) :
    (Filters.init.run writes).config1.toNat / 2 ^ (filter filterNr).position % 2 ^ (filter filterNr).width =
      ((Filters.init.run writes).read filterNr).toNat % 2 ^ (filter filterNr).width := by
  have below : Filters.init.config1.toNat < 2 ^ 60 := by decide
  have fits : (filter filterNr).position + (filter filterNr).width ≤ 64 :=
    (filter_le filterNr).trans (by decide)
  rw [(run_config1 below writes).1, ← get_toNat,
    get_writeAll filterNr (fun j different => filter_disjoint different) fits, run_read, written]
  cases last filterNr writes with
  | some v => exact and_lowBits_toNat v _
  | none => simp [Filters.init, Filters.read, get_toNat]

/-- Writes to two filters may be made in either order, in any state. -/
theorem assign_comm (s : Filters) {i j : Nat} (different : i ≠ j) (v w : BitVec 64)
    (below : s.config1.toNat < 2 ^ 60) :
    (s.assign i v).assign j w = (s.assign j w).assign i v := by
  have first : (filter i).set s.config1 v = filterConfig i v s.config1 := (filterConfig_eq i v below).symm
  have second : (filter j).set s.config1 w = filterConfig j w s.config1 := (filterConfig_eq j w below).symm
  have config : filterConfig j w (filterConfig i v s.config1) = filterConfig i v (filterConfig j w s.config1) := by
    rw [← first, ← second, filterConfig_eq j w (set_toNat_lt (filter_le i) below v),
      filterConfig_eq i v (set_toNat_lt (filter_le j) below w), set_comm (filter_disjoint different)]
  unfold Filters.assign
  rw [config, Function.update_comm different]

/-- `config1` is the packing of what the registers read as. -/
theorem config1_packed_read (writes : List (Nat × BitVec 64)) :
    (Filters.init.run writes).config1.toNat =
      packed [(32, ((Filters.init.run writes).read 0).toNat), (8, ((Filters.init.run writes).read 1).toNat),
        (4, ((Filters.init.run writes).read 2).toNat), (8, ((Filters.init.run writes).read 3).toNat),
        (8, ((Filters.init.run writes).read 4).toNat)] := by
  have clear : Filters.init.config1.toNat < 2 ^ 60 := by decide
  have below := (run_config1 clear writes).2
  have part := config1_filter writes
  generalize (Filters.init.run writes).config1.toNat = x at below part
  have wq : x / 2 ^ 0 % 2 ^ 32 = ((Filters.init.run writes).read 0).toNat % 2 ^ 32 := part 0
  have tc : x / 2 ^ 32 % 2 ^ 8 = ((Filters.init.run writes).read 1).toNat % 2 ^ 8 := part 1
  have pg_sz : x / 2 ^ 40 % 2 ^ 4 = ((Filters.init.run writes).read 2).toNat % 2 ^ 4 := part 2
  have xfer_sz : x / 2 ^ 44 % 2 ^ 8 = ((Filters.init.run writes).read 3).toNat % 2 ^ 8 := part 3
  have eng : x / 2 ^ 52 % 2 ^ 8 = ((Filters.init.run writes).read 4).toNat % 2 ^ 8 := part 4
  have parts : packed (slices x [32, 8, 4, 8, 8]) = x := packed_slices below
  rw [← parts]
  simp only [slices, packed, Nat.div_div_eq_div_mul, ← Nat.pow_add, Nat.reduceAdd]
  rw [Nat.pow_zero, Nat.div_one] at wq
  rw [wq, tc, pg_sz, xfer_sz, eng]

theorem run_append (s : Filters) (writes rest : List (Nat × BitVec 64)) :
    s.run (writes ++ rest) = (s.run writes).run rest := List.foldl_append

/-- After any writes `config1` is the packing of the last values, and two neighbouring writes to different
filters may change places. -/
theorem config1_eq_packed (writes : List (Nat × BitVec 64)) :
    (Filters.init.run writes).config1.toNat =
      packed [(32, ((last 0 writes).getD 0).toNat), (8, ((last 1 writes).getD 0).toNat),
        (4, ((last 2 writes).getD 0).toNat), (8, ((last 3 writes).getD 0).toNat),
        (8, ((last 4 writes).getD 0).toNat)] ∧
    ∀ (i j : Nat) (v w : BitVec 64) (after : List (Nat × BitVec 64)), i ≠ j →
      Filters.init.run (writes ++ (i, v) :: (j, w) :: after) =
        Filters.init.run (writes ++ (j, w) :: (i, v) :: after) := by
  constructor
  · have value : ∀ filterNr, (Filters.init.run writes).read filterNr = (last filterNr writes).getD 0 :=
      run_read Filters.init writes
    rw [← value, ← value, ← value, ← value, ← value]
    exact config1_packed_read writes
  · intro i j v w after different
    have clear : Filters.init.config1.toNat < 2 ^ 60 := by decide
    have below := (run_config1 clear writes).2
    rw [run_append, run_append]
    show (((Filters.init.run writes).assign i v).assign j w).run after = _
    rw [assign_comm _ different v w below]
    rfl

end Pcm.Idx
