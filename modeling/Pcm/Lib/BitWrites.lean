import Mathlib.Data.List.Basic

/-!
# Writes to bits

Writes to a memory of bits, of two kinds: to insert a value into one of the regions, and to raise some
bits anywhere. A bit is what was last inserted there, or what it was before, unless it was raised
later. In disjoint regions what was last inserted is the last value for the region.
-/

namespace Pcm.BitWrites

variable {ι α : Type}

/-- A write; `region` and `bits` say where. -/
inductive Write (ι α : Type)
  | insert (region : ι) (value : α → Bool)
  | raise (bits : α → Bool)

variable (region : ι → α → Bool)

def Write.apply (m : α → Bool) : Write ι α → α → Bool
  | insert i value => fun a => if region i a then value a else m a
  | raise bits => fun a => m a || bits a

def run (writes : List (Write ι α)) (m : α → Bool) : α → Bool :=
  writes.foldl (Write.apply region) m

/-- What a write inserts at a place. -/
def Write.inserts (a : α) : Write ι α → Option Bool
  | insert i value => if region i a then some (value a) else none
  | raise _ => none

def Write.raises (a : α) : Write ι α → Bool
  | insert _ _ => false
  | raise bits => bits a

/-- What was inserted last at a place. -/
def inserted (a : α) : List (Write ι α) → Option Bool
  | [] => none
  | w :: rest => (inserted a rest).or (w.inserts region a)

/-- Whether a place was raised, and nothing was inserted there later. -/
def raised (a : α) : List (Write ι α) → Bool
  | [] => false
  | w :: rest => raised a rest || (w.raises a && (inserted region a rest).isNone)

variable {region} {m : α → Bool} {a : α} {w : Write ι α} {writes : List (Write ι α)}

theorem apply_eq (w : Write ι α) (m : α → Bool) (a : α) :
    w.apply region m a = ((w.inserts region a).getD (m a) || w.raises a) := by
  cases w with
  | insert i value =>
      simp only [Write.apply, Write.inserts, Write.raises, Bool.or_false]
      cases region i a with
      | true => rfl
      | false => rfl
  | raise bits => rfl

theorem run_eq (writes : List (Write ι α)) (m : α → Bool) (a : α) :
    run region writes m a = ((inserted region a writes).getD (m a) || raised region a writes) := by
  induction writes generalizing m with
  | nil => simp [run, inserted, raised]
  | cons w rest ih =>
      have first : run region (w :: rest) m = run region rest (w.apply region m) := rfl
      rw [first, ih, apply_eq, inserted, raised]
      cases later : inserted region a rest with
      | some v => simp
      | none => simp [Bool.or_comm, Bool.or_left_comm]

theorem run_append (writes others : List (Write ι α)) (m : α → Bool) :
    run region (writes ++ others) m = run region others (run region writes m) := List.foldl_append

/-- Which bits stay up: those that were raised last, and those that were up and not written to. -/
def stays (region : ι → α → Bool) (writes : List (Write ι α)) (m : α → Bool) (a : α) : Bool :=
  raised region a writes || ((inserted region a writes).isNone && m a)

/-- A memory comes out as intended if what is inserted last is intended, what is intended elsewhere is up,
and everything that stays up is intended; the last one is also needed. -/
theorem run_eq_iff {intended : α → Bool}
    (written : ∀ v, inserted region a writes = some v → intended a = v)
    (rest : inserted region a writes = none → intended a = true → run region writes m a = true) :
    run region writes m a = intended a ↔ (stays region writes m a = true → intended a = true) := by
  unfold stays
  rw [run_eq] at rest ⊢
  cases last : inserted region a writes with
  | some v =>
      rw [written v last]
      cases v <;> simp
  | none =>
      have up := rest last
      rw [last] at up
      cases goal : intended a with
      | true => simpa [goal] using up goal
      | false => simp [Bool.or_comm]

theorem inserted_outside (writes : List (Write ι α)) (outside : ∀ j, region j a = false) : inserted region a writes = none := by
  induction writes with
  | nil => rfl
  | cons w rest ih =>
      rw [inserted, ih]
      cases w with
      | insert j value => simp [Write.inserts, outside j]
      | raise bits => rfl

/-- A raised bit stays up where nothing is inserted. -/
theorem raised_of_mem (mem : w ∈ writes) (raises : w.raises a = true)
    (untouched : inserted region a writes = none) : raised region a writes = true := by
  induction writes with
  | nil => cases mem
  | cons v rest ih =>
      rw [inserted, Option.or_eq_none_iff] at untouched
      rw [raised]
      rcases List.mem_cons.mp mem with rfl | later
      · simp [raises, untouched.1]
      · simp [ih later untouched.1]

/-! ## Disjoint regions -/

/-- The last value for a region. -/
def lastValue [DecidableEq ι] (i : ι) : List (Write ι α) → Option (α → Bool)
  | [] => none
  | .insert j value :: rest => (lastValue i rest).or (if j = i then some value else none)
  | .raise _ :: rest => lastValue i rest

variable [DecidableEq ι] {i : ι}

theorem inserted_of_region (disjoint : ∀ j, j ≠ i → region j a = false) (within : region i a = true) :
    inserted region a writes = (lastValue i writes).map (fun value => value a) := by
  induction writes with
  | nil => rfl
  | cons w rest ih =>
      cases w with
      | insert j value =>
          rw [inserted, lastValue, ih, Option.map_or, Write.inserts]
          by_cases same : j = i
          · subst same
            simp [within]
          · simp [same, disjoint j same]
      | raise bits =>
          rw [inserted, lastValue, ih, Write.inserts, Option.or_none]

theorem lastValue_append (writes others : List (Write ι α)) :
    lastValue i (writes ++ others) = (lastValue i others).or (lastValue i writes) := by
  induction writes with
  | nil => simp [lastValue]
  | cons w rest ih =>
      cases w with
      | insert j value => rw [List.cons_append, lastValue, lastValue, ih, Option.or_assoc]
      | raise bits => rw [List.cons_append, lastValue, lastValue, ih]

end Pcm.BitWrites
