import Pcm.Lib.FreeRunning
import Mathlib.Data.List.Chain

/-!
# Counter width extension

`CounterWidthExtender` (`width_extender.h:29-175`, constructor `cpucounters.cpp:11308-11330`)
makes a 64-bit counter out of a narrow free-running one: it samples the raw counter, adds the
distance from the previous sample, and a watchdog thread samples often enough that no lap is
missed. Every method holds `CounterMutex` from the sample to the update, so an execution of the
watchdog thread and any number of clients is a sequence of whole calls.
-/

namespace Pcm

open FreeRunning

/-- The data members of `CounterWidthExtender` that its methods read and write
(`width_extender.h:124-127`). -/
structure CounterWidthExtender where
  extendedValue : BitVec 64
  lastRawValue : BitVec 64
  counterWidth : Nat
  deriving DecidableEq, Repr

namespace CounterWidthExtender

/-- The constructor, given the value its call of the raw counter returns. -/
def construct (counterWidth : Nat) (rawValue : BitVec 64) : CounterWidthExtender where
  extendedValue := rawValue
  lastRawValue := rawValue
  counterWidth := counterWidth

/-- `internal_read` (`width_extender.h:136-157`), given the value its call of the raw counter
returns. -/
def internalRead (s : CounterWidthExtender) (newRawValue : BitVec 64) :
    CounterWidthExtender × BitVec 64 :=
  let extended :=
    if newRawValue < s.lastRawValue then
      s.extendedValue + ((1#64 <<< s.counterWidth - s.lastRawValue) + newRawValue)
    else
      s.extendedValue + (newRawValue - s.lastRawValue)
  ({ s with extendedValue := extended, lastRawValue := newRawValue }, extended)

/-- `read` (`width_extender.h:164-167`). -/
def read (s : CounterWidthExtender) (newRawValue : BitVec 64) :
    CounterWidthExtender × BitVec 64 :=
  s.internalRead newRawValue

/-- `reset` (`width_extender.h:168-173`). -/
def reset (s : CounterWidthExtender) (rawValue : BitVec 64) : CounterWidthExtender :=
  { s with extendedValue := rawValue, lastRawValue := rawValue }

/-- The three operations that interleave: `internal_read` by the watchdog thread, `read` and
`reset` by clients. -/
inductive Method
  | internalRead
  | read
  | reset
  deriving DecidableEq, Repr

/-- One call, with the true number of events at the moment it samples the raw counter. -/
structure Call where
  method : Method
  count : Nat
  deriving DecidableEq, Repr

/-- The state after one call. -/
def step (s : CounterWidthExtender) (c : Call) : CounterWidthExtender :=
  match c.method with
  | .internalRead => (s.internalRead (raw s.counterWidth c.count)).1
  | .read => (s.read (raw s.counterWidth c.count)).1
  | .reset => s.reset (raw s.counterWidth c.count)

/-- The state after a sequence of calls, starting with the construction at count `t₀`. -/
def exec (w t₀ : Nat) (calls : List Call) : CounterWidthExtender :=
  calls.foldl step (construct w (raw w t₀))

/-- What a client's `read` at count `t` returns after `calls`. -/
def readResult (w t₀ : Nat) (calls : List Call) (t : Nat) : BitVec 64 :=
  ((exec w t₀ calls).read (raw w t)).2

/-- The true count at the last reset, or at the construction if there was none. -/
def baseCount (t₀ : Nat) (calls : List Call) : Nat :=
  calls.foldl (fun b c => if c.method = .reset then c.count else b) t₀

/-- The true count at the last sample of the raw counter. -/
def sampleCount (t₀ : Nat) (calls : List Call) : Nat :=
  calls.foldl (fun _ c => c.count) t₀

/-- The counter never runs backwards, and consecutive samples are less than `2 ^ w` apart. -/
def Sampled (w t₀ : Nat) (calls : List Call) : Prop :=
  List.IsChain (fun a b => a ≤ b ∧ b < a + 2 ^ w) (t₀ :: calls.map Call.count)

/-- What holds between calls: the extended value is the raw value at count `base` plus the
events counted from there to the last sample at count `last`. -/
structure Inv (w base last : Nat) (s : CounterWidthExtender) : Prop where
  width : s.counterWidth = w
  order : base ≤ last
  lastRaw : s.lastRawValue = raw w last
  extended : s.extendedValue = raw w base + BitVec.ofNat 64 (last - base)

theorem one_shiftLeft (w : Nat) : (1#64 <<< w) = BitVec.ofNat 64 (2 ^ w) := by
  apply BitVec.eq_of_toNat_eq
  simp [Nat.shiftLeft_eq]

/-- Both branches of `internal_read` add the true distance from the previous sample. -/
theorem internalRead_extended {w last t : Nat} (hw : w ≤ 64) {s : CounterWidthExtender}
    (width : s.counterWidth = w) (lastRaw : s.lastRawValue = raw w last)
    (forward : last ≤ t) (close : t < last + 2 ^ w) :
    (s.internalRead (raw w t)).2 = s.extendedValue + BitVec.ofNat 64 (t - last) := by
  rw [ofNat_sub_eq w forward, laps_of_close hw forward close]
  simp only [internalRead, width, lastRaw, one_shiftLeft]
  split
  · rw [show (BitVec.ofNat 64 1 : BitVec 64) = 1 from rfl]
    ring
  · rw [show (BitVec.ofNat 64 0 : BitVec 64) = 0 from rfl]
    ring

theorem inv_construct (w t₀ : Nat) : Inv w t₀ t₀ (construct w (raw w t₀)) where
  width := rfl
  order := le_refl t₀
  lastRaw := rfl
  extended := by simp [construct]

/-- What a read returns in a state that satisfies the invariant. -/
theorem Inv.read_result {w base last t : Nat} (hw : w ≤ 64) {s : CounterWidthExtender}
    (inv : Inv w base last s) (forward : last ≤ t) (close : t < last + 2 ^ w) :
    (s.internalRead (raw w t)).2 = raw w base + BitVec.ofNat 64 (t - base) := by
  rw [internalRead_extended hw inv.width inv.lastRaw forward close, inv.extended, add_assoc,
    ← BitVec.ofNat_add]
  have order := inv.order
  congr 2
  omega

theorem Inv.internalRead {w base last t : Nat} (hw : w ≤ 64) {s : CounterWidthExtender}
    (inv : Inv w base last s) (forward : last ≤ t) (close : t < last + 2 ^ w) :
    Inv w base t (s.internalRead (raw w t)).1 where
  width := inv.width
  order := inv.order.trans forward
  lastRaw := rfl
  extended := inv.read_result hw forward close

theorem Inv.reset {w base last : Nat} {s : CounterWidthExtender} (inv : Inv w base last s)
    (t : Nat) : Inv w t t (s.reset (raw w t)) where
  width := inv.width
  order := le_refl t
  lastRaw := rfl
  extended := by simp [CounterWidthExtender.reset]

/-- One call keeps the invariant, whichever of the three operations it is. -/
theorem Inv.step {w base last : Nat} (hw : w ≤ 64) {s : CounterWidthExtender}
    (inv : Inv w base last s) (c : Call) (forward : last ≤ c.count)
    (close : c.count < last + 2 ^ w) :
    Inv w (if c.method = .reset then c.count else base) c.count (s.step c) := by
  obtain ⟨method, t⟩ := c
  cases method with
  | internalRead =>
      simp only [CounterWidthExtender.step, inv.width]
      exact inv.internalRead hw forward close
  | read =>
      simp only [CounterWidthExtender.step, inv.width]
      exact inv.internalRead hw forward close
  | reset =>
      simp only [CounterWidthExtender.step, inv.width]
      exact inv.reset t

/-- The invariant holds after every sequence of calls. The induction generalizes the state, so
that the counts already seen are those of the invariant. -/
theorem Inv.foldl {w : Nat} (hw : w ≤ 64) :
    ∀ (calls : List Call) {base last : Nat} {s : CounterWidthExtender}, Inv w base last s →
      Sampled w last calls →
      Inv w (baseCount base calls) (sampleCount last calls) (calls.foldl CounterWidthExtender.step s) := by
  intro calls
  induction calls with
  | nil => intro base last s inv _; exact inv
  | cons c calls ih =>
      intro base last s inv sampled
      rw [Sampled, List.map_cons, List.isChain_cons_cons] at sampled
      obtain ⟨⟨forward, close⟩, rest⟩ := sampled
      exact ih (inv.step hw c forward close) rest

theorem inv_exec {w : Nat} (hw : w ≤ 64) (t₀ : Nat) (calls : List Call)
    (sampled : Sampled w t₀ calls) :
    Inv w (baseCount t₀ calls) (sampleCount t₀ calls) (exec w t₀ calls) :=
  (inv_construct w t₀).foldl hw calls sampled

/-- A call in the middle of a run samples the counter less than a lap after the calls before it. -/
theorem Sampled.split {w : Nat} :
    ∀ {pre : List Call} {t₀ : Nat} {c : Call} {rest : List Call},
      Sampled w t₀ (pre ++ c :: rest) →
      Sampled w t₀ pre ∧ sampleCount t₀ pre ≤ c.count ∧ c.count < sampleCount t₀ pre + 2 ^ w := by
  intro pre
  induction pre with
  | nil =>
      intro t₀ c rest sampled
      rw [Sampled, List.nil_append, List.map_cons, List.isChain_cons_cons] at sampled
      exact ⟨List.isChain_singleton _, sampled.1⟩
  | cons d pre ih =>
      intro t₀ c rest sampled
      rw [Sampled, List.cons_append, List.map_cons, List.isChain_cons_cons] at sampled
      obtain ⟨front, close⟩ := ih sampled.2
      exact ⟨List.isChain_cons_cons.mpr ⟨sampled.1, front⟩, close⟩

theorem baseCount_append (t₀ : Nat) (pre calls : List Call) :
    baseCount t₀ (pre ++ calls) = baseCount (baseCount t₀ pre) calls :=
  List.foldl_append

theorem baseCount_of_no_reset {calls : List Call} (none : ∀ c ∈ calls, c.method ≠ .reset)
    (b : Nat) : baseCount b calls = b := by
  induction calls generalizing b with
  | nil => rfl
  | cons c calls ih =>
      have head : c.method ≠ .reset := none c (by simp)
      rw [baseCount, List.foldl_cons, if_neg head]
      exact ih (fun d hd => none d (by simp [hd])) b

/-- What a read returns after the calls `pre`; it samples at or after their last reset. -/
theorem readResult_eq {w : Nat} (hw : w ≤ 64) {t₀ : Nat} {pre rest : List Call} {c : Call}
    (sampled : Sampled w t₀ (pre ++ c :: rest)) :
    readResult w t₀ pre c.count =
      raw w (baseCount t₀ pre) + BitVec.ofNat 64 (c.count - baseCount t₀ pre) ∧
    baseCount t₀ pre ≤ c.count := by
  obtain ⟨front, forward, close⟩ := sampled.split
  have inv := inv_exec hw t₀ pre front
  exact ⟨inv.read_result hw forward close, inv.order.trans forward⟩

/-- In every interleaving of `internal_read`, `read` and `reset` whose samples are less than a lap
apart, a read returns the raw value at the last reset or at the construction plus the events
counted since then, and two reads with no reset in between differ by the events between them. -/
theorem read_counts_events {w : Nat} (hw : w < 64) (t₀ : Nat) (calls : List Call)
    (sampled : Sampled w t₀ calls) :
    (∀ pre t rest, calls = pre ++ ⟨.read, t⟩ :: rest →
      readResult w t₀ pre t =
        raw w (baseCount t₀ pre) + BitVec.ofNat 64 (t - baseCount t₀ pre)) ∧
    (∀ pre t mid t' rest, calls = pre ++ ⟨.read, t⟩ :: (mid ++ ⟨.read, t'⟩ :: rest) →
      (∀ c ∈ mid, c.method ≠ .reset) →
      readResult w t₀ (pre ++ ⟨.read, t⟩ :: mid) t' - readResult w t₀ pre t =
        BitVec.ofNat 64 (t' - t)) := by
  constructor
  · rintro pre t rest rfl
    exact (readResult_eq hw.le sampled).1
  · rintro pre t mid t' rest rfl noReset
    obtain ⟨first, order⟩ := readResult_eq hw.le sampled
    have sampled' : Sampled w t₀ ((pre ++ ⟨.read, t⟩ :: mid) ++ ⟨.read, t'⟩ :: rest) := by
      simpa using sampled
    obtain ⟨second, order'⟩ := readResult_eq hw.le sampled'
    have base : baseCount t₀ (pre ++ ⟨.read, t⟩ :: mid) = baseCount t₀ pre := by
      rw [baseCount_append]
      apply baseCount_of_no_reset
      simpa using noReset
    rw [base] at second order'
    simp only at first second order order'
    -- the second read is not before the first one: the samples only go up
    have tail : Sampled w t (mid ++ ⟨.read, t'⟩ :: rest) := by
      have chain := sampled
      rw [Sampled, List.map_append, List.map_cons, ← List.cons_append] at chain
      exact (List.isChain_append.mp chain).2.1
    have forward : t ≤ t' := by
      obtain ⟨front, after, -⟩ := tail.split
      have between := (inv_exec hw.le t mid front).order
      rw [baseCount_of_no_reset noReset] at between
      exact between.trans after
    rw [first, second, ofNat_sub_of_le order, ofNat_sub_of_le order', ofNat_sub_of_le forward]
    ring

/-- An 8-bit counter that wraps between two reads, with a watchdog sample in between. -/
theorem read_counts_events_wrap :
    Sampled 8 250 [⟨.read, 255⟩, ⟨.internalRead, 256⟩, ⟨.read, 300⟩] ∧
    readResult 8 250 [⟨.read, 255⟩, ⟨.internalRead, 256⟩] 300 - readResult 8 250 [] 255 = 45#64 := by
  have sampled : Sampled 8 250 [⟨.read, 255⟩, ⟨.internalRead, 256⟩, ⟨.read, 300⟩] := by
    simp [Sampled]
  exact ⟨sampled, (read_counts_events (by decide) 250 _ sampled).2 [] 255 [⟨.internalRead, 256⟩] 300 []
    rfl (by simp)⟩

end CounterWidthExtender

end Pcm
