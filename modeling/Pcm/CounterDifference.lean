import Pcm.ReadCounters
import Pcm.Lib.FreeRunning

/-!
# Differences of core counters

A core counter of width `w` wraps around and sets its bit in `IA32_PERF_GLOBAL_STATUS`. Every
`readAndAggregate` of the core, whoever asks for it, stores that bit next to the counter value and
clears it (`cpucounters.cpp:5774-5786`, `5867-5873`). A later difference of two snapshots adds
`2 ^ 48` when its left operand holds the bit (`utils.h:317-322`). This file says for which
sequences of reads the differences are the true numbers of events.
-/

namespace Pcm

open FreeRunning

/-- The counters of one core: the true numbers of events, and the overflow bits. -/
structure CorePmu where
  count : CoreCounter → Nat
  status : BitVec 64

namespace CoreCounter

/-- The bit of the counter in `IA32_PERF_GLOBAL_STATUS`. -/
def statusBit : CoreCounter → Nat
  | instRetiredAny => 32
  | cpuClkUnhaltedThread => 33
  | cpuClkUnhaltedRef => 34
  | event i => i

/-- The register that shows the counter. -/
def address : CoreCounter → Nat
  | instRetiredAny => 0x309
  | cpuClkUnhaltedThread => 0x30A
  | cpuClkUnhaltedRef => 0x30B
  | event i => 0xC1 + i

def width (m : Machine) : CoreCounter → Nat
  | event _ => m.coreGenCounterWidth
  | _ => m.coreFixedCounterWidth

/-- Whether the core has the counter. -/
def available (m : Machine) : CoreCounter → Bool
  | event i => i < m.coreGenCounterNumMax
  | _ => true

def ofAddress (a : Nat) : Option CoreCounter :=
  if a = 0x309 then some instRetiredAny
  else if a = 0x30A then some cpuClkUnhaltedThread
  else if a = 0x30B then some cpuClkUnhaltedRef
  else if h : 0xC1 ≤ a ∧ a < 0xC1 + 8 then some (event ⟨a - 0xC1, by omega⟩)
  else none

theorem ofAddress_address (c : CoreCounter) : ofAddress c.address = some c := by
  cases c with
  | event i =>
      have small := i.isLt
      change ofAddress (0xC1 + i) = _
      unfold ofAddress
      rw [if_neg (by omega), if_neg (by omega), if_neg (by omega), dif_pos (by omega)]
      simp
  | _ => rfl

theorem address_ne_status (c : CoreCounter) : c.address ≠ 0x38E := by
  cases c with
  | event i =>
      have small := i.isLt
      simp only [address]
      omega
  | _ => decide

theorem statusBit_le (c : CoreCounter) : c.statusBit ≤ 63 := by
  cases c with
  | event i =>
      have small := i.isLt
      simp only [statusBit]
      omega
  | _ => decide

end CoreCounter

namespace CorePmu

/-- What reading register `a` returns; `other` are the registers without a counter. -/
def msr (m : Machine) (other : Nat → BitVec 64) (pmu : CorePmu) (a : Nat) : BitVec 64 :=
  if a = 0x38E then pmu.status
  else match CoreCounter.ofAddress a with
    | some c => raw (c.width m) (pmu.count c)
    | none => other a

/-- Writing `IA32_PERF_GLOBAL_OVF_CTRL` clears the status bits that are set in the value. -/
def write (pmu : CorePmu) (w : Nat × BitVec 64) : CorePmu :=
  if w.1 = 0x390 then { pmu with status := pmu.status &&& ~~~w.2 } else pmu

/-- The core as `readAndAggregate` finds it. -/
def toCore (m : Machine) (core : Core) (pmu : CorePmu) : Core :=
  { core with msr := pmu.msr m core.msr }

/-- A fresh snapshot of the core. -/
def snapshot (m : Machine) (core : Core) (pmu : CorePmu) : BasicCounterState :=
  m.readAndAggregate (pmu.toCore m core) {}

/-- The counters after `readAndAggregate`. -/
def afterRead (m : Machine) (core : Core) (pmu : CorePmu) : CorePmu :=
  (m.readAndAggregateWrites (pmu.toCore m core)).foldl write pmu

/-- What can happen between two reads: the counters count on, each wraps at most once, and a
wrap sets the counter's bit. -/
structure Counts (m : Machine) (pmu pmu' : CorePmu) : Prop where
  forward : ∀ c, pmu.count c ≤ pmu'.count c
  oneWrap : ∀ c, laps (c.width m) (pmu'.count c) ≤ laps (c.width m) (pmu.count c) + 1
  status : ∀ c, pmu'.status.getLsbD c.statusBit =
    (pmu.status.getLsbD c.statusBit ||
      decide (laps (c.width m) (pmu.count c) < laps (c.width m) (pmu'.count c)))

end CorePmu

/-- The reads number `0` to `n` of one core, all readers taken together; `pmu k` is the state of
the counters when read `k` begins. -/
structure ReadSequence (m : Machine) (core : Core) (n : Nat) where
  pmu : Nat → CorePmu
  counts : ∀ k < n, CorePmu.Counts m ((pmu k).afterRead m core) (pmu (k + 1))

namespace ReadSequence

variable {m : Machine} {core : Core} {n : Nat}

/-- The snapshot that read `k` takes. -/
def state (r : ReadSequence m core n) (k : Nat) : BasicCounterState := (r.pmu k).snapshot m core

/-- `s_j - s_i` for counter `c`. -/
def difference (r : ReadSequence m core n) (c : CoreCounter) (j i : Nat) : BitVec 64 :=
  (c.get (r.state j)).sub (c.get (r.state i))

/-- How often counter `c` has wrapped when read `k` is taken. -/
def lapsAt (r : ReadSequence m core n) (c : CoreCounter) (k : Nat) : Nat :=
  laps (c.width m) ((r.pmu k).count c)

/-- Every difference is the true number of events, and differences telescope. -/
def DifferencesExact (r : ReadSequence m core n) (c : CoreCounter) : Prop :=
  (∀ i j, i < j → j ≤ n →
    r.difference c j i = BitVec.ofNat 64 ((r.pmu j).count c - (r.pmu i).count c)) ∧
  (∀ i j k, i < j → j < k → k ≤ n →
    r.difference c k j + r.difference c j i = r.difference c k i)

end ReadSequence

/-- The core counters are read directly, and nobody has changed the event select registers. -/
structure DirectReads (m : Machine) (core : Core) : Prop where
  direct : m.canUsePerf = false
  intact : ∀ i value, core.lastProgrammedCustomCounters[i]? = some value →
    core.msr (0x186 + i) = value

section Snapshot

variable {m : Machine} {core : Core}

theorem CorePmu.msr_address (m : Machine) (other : Nat → BitVec 64) (pmu : CorePmu)
    (c : CoreCounter) : pmu.msr m other c.address = raw (c.width m) (pmu.count c) := by
  rw [CorePmu.msr, if_neg c.address_ne_status, CoreCounter.ofAddress_address]

theorem not_corrupted (reads : DirectReads m core) (pmu : CorePmu) (i : CustomCounter) :
    m.corrupted (pmu.toCore m core) i = false := by
  have small := i.isLt
  have other : CoreCounter.ofAddress (0x186 + i) = none := by
    unfold CoreCounter.ofAddress
    rw [if_neg (by omega), if_neg (by omega), if_neg (by omega), dif_neg (by omega)]
  have select : (pmu.toCore m core).msr (0x186 + i) = core.msr (0x186 + i) := by
    change pmu.msr m core.msr (0x186 + i) = _
    rw [CorePmu.msr, if_neg (by omega), other]
  unfold Machine.corrupted
  rw [select, reads.direct]
  cases h : core.lastProgrammedCustomCounters[(i : Nat)]? with
  | none => simp [CorePmu.toCore, h]
  | some value => simp [CorePmu.toCore, h, reads.intact i value h]

/-- The value taken out of a counter register is the register itself: its upper bits are zero. -/
theorem extractCounterValue_raw {w : Nat} (pos : 0 < w) (small : w ≤ 64) (t : Nat) :
    Machine.extractCounterValue w (raw w t) = raw w t := by
  rw [Machine.extractCounterValue, if_pos (by omega), extractBits_low _ pos small,
    raw_toNat small, Nat.mod_mod]
  rfl

/-- A fresh snapshot holds the counter and its overflow bit. -/
theorem get_snapshot (reads : DirectReads m core) {c : CoreCounter} (has : c.available m = true)
    (pos : 0 < c.width m) (small : c.width m ≤ 48) (pmu : CorePmu) :
    c.get (pmu.snapshot m core) =
      ⟨raw (c.width m) (pmu.count c),
        if pmu.status.getLsbD c.statusBit then 1 else 0⟩ := by
  have register := pmu.msr_address m core.msr c
  have value := extractCounterValue_raw pos (by omega) (pmu.count c)
  have overflows : m.overflows (pmu.toCore m core) = pmu.status := by
    simp [Machine.overflows, reads.direct, CorePmu.toCore, CorePmu.msr]
  have bit := extractBits_bit pmu.status c.statusBit_le
  have fixed := reads.direct
  cases c with
  | event i =>
      have enabled : (i : Nat) < m.coreGenCounterNumMax := by simpa [CoreCounter.available] using has
      change pmu.msr m core.msr (0xC1 + i) = _ at register
      simp only [CoreCounter.get, CorePmu.snapshot, Machine.readAndAggregate, if_pos enabled,
        Machine.readCounter, not_corrupted reads pmu i, Machine.extractCoreGenCounterValue, fixed,
        overflows, CheckedUint64.add]
      simp only [CorePmu.toCore, register, CoreCounter.width] at value ⊢
      simpa [value, CoreCounter.statusBit] using bit
  | _ =>
      simp only [CoreCounter.address] at register
      simp only [CoreCounter.get, CorePmu.snapshot, Machine.readAndAggregate, Machine.readCounter,
        Machine.extractCoreFixedCounterValue, fixed, overflows, CheckedUint64.add]
      simp only [CorePmu.toCore, register, CoreCounter.width] at value ⊢
      simpa [value, CoreCounter.statusBit] using bit

/-- A read clears all the bits it has seen. -/
theorem afterRead_status (reads : DirectReads m core) (pmu : CorePmu) :
    (pmu.afterRead m core).status = 0 := by
  have overflows : m.overflows (pmu.toCore m core) = pmu.status := by
    simp [Machine.overflows, reads.direct, CorePmu.toCore, CorePmu.msr]
  unfold CorePmu.afterRead Machine.readAndAggregateWrites
  rw [overflows, reads.direct]
  by_cases freeze : m.coreGlobalCtrlValue = 0#64 <;> by_cases topDown : m.hwTMAL1Supported = true <;>
    simp [freeze, topDown, CorePmu.write]

theorem afterRead_count (m : Machine) (core : Core) (pmu : CorePmu) :
    (pmu.afterRead m core).count = pmu.count := by
  apply Accumulate.observe_foldl_const CorePmu.count
  intro s w _
  unfold CorePmu.write
  split <;> rfl

end Snapshot

namespace ReadSequence

variable {m : Machine} {core : Core} {n : Nat} (r : ReadSequence m core n) (c : CoreCounter)

/-- How often the counter wraps between the reads `k` and `k + 1`. -/
def wraps (k : Nat) : Nat := r.lapsAt c (k + 1) - r.lapsAt c k

variable {r c}

theorem count_le {k : Nat} (h : k < n) : (r.pmu k).count c ≤ (r.pmu (k + 1)).count c := by
  have forward := (r.counts k h).forward c
  rwa [afterRead_count] at forward

theorem lapsAt_le {k : Nat} (h : k < n) : r.lapsAt c k ≤ r.lapsAt c (k + 1) :=
  laps_mono _ (count_le h)

theorem wraps_le {k : Nat} (h : k < n) : r.wraps c k ≤ 1 := by
  have one := (r.counts k h).oneWrap c
  rw [afterRead_count] at one
  unfold wraps lapsAt
  omega

theorem count_mono {i j : Nat} (order : i ≤ j) (bound : j ≤ n) :
    (r.pmu i).count c ≤ (r.pmu j).count c := by
  induction j, order using Nat.le_induction with
  | base => exact le_refl _
  | succ j _ ih => exact (ih (by omega)).trans (count_le (by omega))

/-- The overflow bit that read `k + 1` finds tells the wraps since read `k` only. -/
theorem status_bit (reads : DirectReads m core) {k : Nat} (h : k < n) :
    (if (r.pmu (k + 1)).status.getLsbD c.statusBit then (1 : BitVec 64) else 0) =
      BitVec.ofNat 64 (r.wraps c k) := by
  have le := wraps_le (r := r) (c := c) h
  have status := (r.counts k h).status c
  rw [afterRead_status reads, afterRead_count] at status
  rw [status]
  rcases Nat.lt_or_ge (r.lapsAt c k) (r.lapsAt c (k + 1)) with more | same
  · have one : r.wraps c k = 1 := by
      unfold wraps at le ⊢
      omega
    rw [one]
    unfold lapsAt at more
    simp [more]
  · have zero : r.wraps c k = 0 := by
      unfold wraps
      omega
    rw [zero]
    unfold lapsAt at same
    simp [Nat.not_lt.mpr same]

/-- What a difference is: the distance of the two words, and `2 ^ 48` for a wrap just before the
later read. -/
theorem difference_eq (reads : DirectReads m core) (has : c.available m = true)
    (pos : 0 < c.width m) (small : c.width m ≤ 48) {i k : Nat} (h : k < n) :
    r.difference c (k + 1) i =
      raw (c.width m) ((r.pmu (k + 1)).count c) - raw (c.width m) ((r.pmu i).count c) +
        BitVec.ofNat 64 (r.wraps c k * 2 ^ 48) := by
  have later := get_snapshot reads has pos small (r.pmu (k + 1))
  have earlier := get_snapshot reads has pos small (r.pmu i)
  rw [difference, state, state, later, earlier, CheckedUint64.sub, status_bit reads h,
    BitVec.ofNat_mul, show (1#64 <<< 48) = BitVec.ofNat 64 (2 ^ 48) from rfl]
  ring

/-- A difference is right when the wraps since the earlier read weigh what was added. -/
theorem difference_exact_iff (reads : DirectReads m core) (has : c.available m = true)
    (pos : 0 < c.width m) (small : c.width m ≤ 48) {i k : Nat} (order : i ≤ k) (h : k < n) :
    r.difference c (k + 1) i =
        BitVec.ofNat 64 ((r.pmu (k + 1)).count c - (r.pmu i).count c) ↔
      BitVec.ofNat 64 (r.wraps c k * 2 ^ 48) =
        BitVec.ofNat 64 ((r.lapsAt c (k + 1) - r.lapsAt c i) * 2 ^ c.width m) := by
  rw [difference_eq reads has pos small h,
    ofNat_sub_eq (c.width m) (count_mono (show i ≤ k + 1 by omega) (show k + 1 ≤ n by omega)),
    add_right_inj, ← BitVec.ofNat_mul]
  rfl

theorem ofNat_inj_of_lt {a b : Nat} (ha : a < 2 ^ 64) (hb : b < 2 ^ 64)
    (eq : BitVec.ofNat 64 a = BitVec.ofNat 64 b) : a = b := by
  have toNat := congrArg BitVec.toNat eq
  rwa [BitVec.toNat_ofNat, BitVec.toNat_ofNat, Nat.mod_eq_of_lt ha, Nat.mod_eq_of_lt hb] at toNat

/-- A right difference over one interval: the counter did not wrap, or it is 48 bits wide. -/
theorem width_of_exact (reads : DirectReads m core) (has : c.available m = true)
    (pos : 0 < c.width m) (small : c.width m ≤ 48) (exact : r.DifferencesExact c) {k : Nat}
    (h : k < n) (wrapped : r.wraps c k ≠ 0) : c.width m = 48 := by
  have one : r.wraps c k = 1 := by
    have le := wraps_le (r := r) (c := c) h
    omega
  have weigh := (difference_exact_iff reads has pos small (le_refl k) h).mp
    (exact.1 k (k + 1) (by omega) (by omega))
  have power : 2 ^ c.width m ≤ 2 ^ 48 := Nat.pow_le_pow_right (by omega) small
  have laps : r.lapsAt c (k + 1) - r.lapsAt c k = 1 := one
  rw [one, laps, Nat.one_mul, Nat.one_mul] at weigh
  have same := ofNat_inj_of_lt (by omega) (by omega) weigh
  exact (Nat.pow_right_injective (le_refl 2) same).symm

/-- A wrap that a read in the middle has taken away is missing in the next difference. -/
theorem no_wrap_of_exact (reads : DirectReads m core) (has : c.available m = true)
    (pos : 0 < c.width m) (small : c.width m ≤ 48) (exact : r.DifferencesExact c) {k : Nat}
    (h : k + 1 < n) : r.wraps c k = 0 := by
  by_contra wrapped
  have width := width_of_exact reads has pos small exact (by omega) wrapped
  have one : r.wraps c k = 1 := by
    have le := wraps_le (r := r) (c := c) (show k < n by omega)
    omega
  have next := wraps_le (r := r) (c := c) h
  have weigh := (difference_exact_iff reads has pos small (show k ≤ k + 1 by omega) h).mp
    (exact.1 k (k + 1 + 1) (by omega) (by omega))
  have laps : r.lapsAt c (k + 1 + 1) - r.lapsAt c k = 1 + r.wraps c (k + 1) := by
    have le := lapsAt_le (r := r) (c := c) (show k < n by omega)
    have le' := lapsAt_le (r := r) (c := c) h
    unfold wraps at one ⊢
    omega
  rw [laps, width] at weigh
  have same := ofNat_inj_of_lt (by omega) (by omega) weigh
  omega

/-- Until its last read, a run without lost wraps has the same laps at every read. -/
theorem lapsAt_const (noWrap : ∀ k, k + 1 < n → r.wraps c k = 0) {i j : Nat} (order : i ≤ j)
    (bound : j < n) : r.lapsAt c j = r.lapsAt c i := by
  induction j, order using Nat.le_induction with
  | base => rfl
  | succ j _ ih =>
      have step := noWrap j bound
      have le := lapsAt_le (r := r) (c := c) (show j < n by omega)
      unfold wraps at step
      rw [← ih (by omega)]
      omega

/-- The differences of all pairs of reads are the true numbers of events, and telescope, exactly
when the counter wraps in no interval but the last one, and there only if it is 48 bits wide. -/
theorem differences_exact_iff (reads : DirectReads m core) (has : c.available m = true)
    (pos : 0 < c.width m) (small : c.width m ≤ 48) (r : ReadSequence m core n) :
    r.DifferencesExact c ↔
      (∀ k, k + 1 < n → r.wraps c k = 0) ∧
      (∀ k, k + 1 = n → r.wraps c k ≠ 0 → c.width m = 48) := by
  constructor
  · intro exact
    exact ⟨fun k h => no_wrap_of_exact reads has pos small exact h,
      fun k h wrapped => width_of_exact reads has pos small exact (by omega) wrapped⟩
  · rintro ⟨noWrap, lastWrap⟩
    have right : ∀ i j, i < j → j ≤ n →
        r.difference c j i = BitVec.ofNat 64 ((r.pmu j).count c - (r.pmu i).count c) := by
      intro i j order bound
      obtain ⟨k, rfl⟩ : ∃ k, j = k + 1 := ⟨j - 1, by omega⟩
      rw [difference_exact_iff reads has pos small (by omega) (by omega)]
      have laps : r.lapsAt c (k + 1) - r.lapsAt c i = r.wraps c k := by
        rw [wraps, lapsAt_const noWrap (show i ≤ k by omega) (by omega)]
      rw [laps]
      by_cases wrapped : r.wraps c k = 0
      · rw [wrapped, Nat.zero_mul, Nat.zero_mul]
      · rcases Nat.lt_or_eq_of_le bound with inner | last
        · exact absurd (noWrap k inner) wrapped
        · rw [lastWrap k last wrapped]
    refine ⟨right, ?_⟩
    intro i j k before after bound
    rw [right j k after bound, right i j before (by omega), right i k (by omega) bound,
      ← BitVec.ofNat_add]
    congr 1
    have lower := count_mono (r := r) (c := c) before.le (show j ≤ n by omega)
    have upper := count_mono (r := r) (c := c) after.le bound
    omega

/-! ## A 48-bit counter that wraps between the first two reads -/

def wrapCore : Core := { osId := 0, coreId := 0, socketId := 0, msr := fun _ => 0 }

def wrapMachine : Machine where
  cpuFamilyModel := .SKX
  numSockets := 1
  cores := [wrapCore]
  socketsInRange := by simp [wrapCore]
  arith := { scale := fun x d => x / BitVec.ofNat 64 d, share := fun part total slots => part * slots / total }
  coreGenCounterNumMax := 4
  coreGenCounterWidth := 48
  coreFixedCounterWidth := 48

/-- Instructions retire one by one; nothing else is counted. -/
def wrapPmu (k : Nat) : CorePmu where
  count := fun c => if c = .instRetiredAny then 2 ^ 48 - 1 + k else 0
  status := if k = 1 then 1#64 <<< 32 else 0

theorem wrapReads : DirectReads wrapMachine wrapCore where
  direct := rfl
  intact := by simp [wrapCore]

/-- The reads `0` to `n` of that core. -/
def wrapRun (n : Nat) (small : n ≤ 2) : ReadSequence wrapMachine wrapCore n where
  pmu := wrapPmu
  counts := by
    intro k h
    have read : k = 0 ∨ k = 1 := by omega
    refine ⟨?_, ?_, ?_⟩
    · intro c
      rw [afterRead_count]
      by_cases inst : c = .instRetiredAny <;> simp [wrapPmu, inst]
    · intro c
      rw [afterRead_count]
      rcases read with rfl | rfl <;> by_cases inst : c = .instRetiredAny <;>
        simp [wrapPmu, inst, laps, CoreCounter.width, wrapMachine]
    · intro c
      rw [afterRead_count, afterRead_status wrapReads]
      rcases read with rfl | rfl
      · cases c with
        | instRetiredAny => decide
        | event i => revert i; decide
        | _ => decide
      · cases c with
        | event i => revert i; decide
        | _ => decide

theorem differences_exact_iff_last_interval : (wrapRun 1 (by decide)).DifferencesExact .instRetiredAny := by
  apply (differences_exact_iff wrapReads rfl (by decide) (by decide) (wrapRun 1 (by decide))).mpr
  exact ⟨fun k h => absurd h (by omega), fun _ _ _ => rfl⟩

/-- Three reads of that counter: the difference of the last and the first is `2 - 2 ^ 48`, for two
instructions. -/
theorem differences_lose_wrap :
    DirectReads wrapMachine wrapCore ∧ CoreCounter.instRetiredAny.available wrapMachine = true ∧
    CoreCounter.instRetiredAny.width wrapMachine = 48 ∧
    (wrapRun 2 (by decide)).difference .instRetiredAny 2 0 = 2 - 2 ^ 48 ∧
    ¬ (wrapRun 2 (by decide)).DifferencesExact .instRetiredAny := by
  have value : (wrapRun 2 (by decide)).difference .instRetiredAny 2 0 = 2 - 2 ^ 48 := by decide
  refine ⟨wrapReads, rfl, rfl, value, ?_⟩
  intro exact
  have difference := exact.1 0 2 (by decide) (by decide)
  rw [value] at difference
  revert difference
  decide

end ReadSequence

end Pcm
