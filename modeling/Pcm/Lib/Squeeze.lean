import Mathlib.Data.List.Chain
import Mathlib.Data.List.DropRight

/-!
# Runs of separators

Of every run of separators in a sequence the first one is kept.
-/

namespace Pcm.Squeeze

variable {α : Type} (sep : α → Bool)

/-- The separators that follow another one are left out, also those at the front when there is one before. -/
def squeezeFrom (before : Bool) : List α → List α
  | [] => []
  | c :: rest => if sep c && before then squeezeFrom before rest else c :: squeezeFrom (sep c) rest

def squeeze : List α → List α := squeezeFrom sep false

/-- No two separators are next to each other. -/
def Apart (l : List α) : Prop := l.IsChain (fun a b => ¬ (sep a = true ∧ sep b = true))

/-- There is no separator at the end. -/
def Closed (l : List α) : Prop := ∀ c ∈ l.getLast?, sep c = false

section Squeeze

variable {sep} {before : Bool} {c : α} {l rest : List α}

theorem squeezeFrom_skip (skipped : sep c = true) : squeezeFrom sep true (c :: rest) = squeezeFrom sep true rest := by
  rw [squeezeFrom, if_pos (by rw [skipped]; rfl)]

theorem squeezeFrom_keep (kept : (sep c && before) = false) :
    squeezeFrom sep before (c :: rest) = c :: squeezeFrom sep (sep c) rest := by
  rw [squeezeFrom, if_neg (by rw [kept]; exact Bool.false_ne_true)]

theorem squeeze_cons (c : α) (rest : List α) : squeeze sep (c :: rest) = c :: squeezeFrom sep (sep c) rest :=
  squeezeFrom_keep (Bool.and_false _)

/-- Where no separator is kept there is none. -/
theorem eq_of_squeeze (solid : ∀ c ∈ squeeze sep l, sep c = false) : squeeze sep l = l := by
  induction l with
  | nil => rfl
  | cons c l ih =>
      rw [squeeze_cons] at solid ⊢
      have first : sep c = false := solid c List.mem_cons_self
      rw [first] at solid ⊢
      exact congrArg (List.cons c) (ih (fun d member => solid d (List.mem_cons_of_mem c member)))

/-- A run is left out after a separator. -/
theorem squeezeFrom_run {run : List α} (all : ∀ c ∈ run, sep c = true) :
    squeezeFrom sep true (run ++ rest) = squeezeFrom sep true rest := by
  induction run with
  | nil => rfl
  | cons c run ih =>
      rw [List.cons_append, squeezeFrom_skip (all c List.mem_cons_self),
        ih (fun d member => all d (List.mem_cons_of_mem c member))]

/-- Elements that are no separators are kept. -/
theorem squeeze_solid {front : List α} (solid : ∀ c ∈ front, sep c = false) :
    squeeze sep (front ++ rest) = front ++ squeeze sep rest := by
  induction front with
  | nil => rfl
  | cons c front ih =>
      rw [List.cons_append, squeeze_cons, solid c List.mem_cons_self]
      exact congrArg (List.cons c) (ih (fun d member => solid d (List.mem_cons_of_mem c member)))

/-- What is kept after a separator begins with no other one. -/
theorem head_squeezeFrom : ∀ c ∈ (squeezeFrom sep true l).head?, sep c = false := by
  induction l with
  | nil => exact nofun
  | cons d l ih =>
      cases separator : sep d with
      | true =>
          rw [squeezeFrom_skip separator]
          exact ih
      | false =>
          rw [squeezeFrom_keep (by rw [separator]; rfl)]
          intro c here
          rw [← Option.some.inj here]
          exact separator

theorem apart_squeezeFrom (before : Bool) (l : List α) : Apart sep (squeezeFrom sep before l) := by
  induction l generalizing before with
  | nil => exact .nil
  | cons c l ih =>
      cases dropped : sep c && before with
      | true =>
          rw [squeezeFrom, if_pos dropped]
          exact ih before
      | false =>
          rw [squeezeFrom_keep dropped, Apart, List.isChain_cons]
          refine ⟨?_, ih (sep c)⟩
          rintro d here ⟨first, second⟩
          rw [first] at here
          rw [head_squeezeFrom d here] at second
          cases second

theorem filter_squeezeFrom (before : Bool) (l : List α) :
    (squeezeFrom sep before l).filter (fun c => !sep c) = l.filter (fun c => !sep c) := by
  induction l generalizing before with
  | nil => rfl
  | cons c l ih =>
      cases dropped : sep c && before with
      | true =>
          have separator : sep c = true := (Bool.and_eq_true_iff.mp dropped).1
          rw [squeezeFrom, if_pos dropped, ih, List.filter_cons_of_neg (by rw [separator]; decide)]
      | false => rw [squeezeFrom_keep dropped, List.filter_cons, List.filter_cons, ih]

theorem Closed.right {a b : List α} (closed : Closed sep (a ++ b)) : Closed sep b := by
  intro c here
  refine closed c ?_
  rw [List.getLast?_append, Option.mem_def.mp here]
  rfl

/-- A separator at the front is followed by more of them, and then by another element. -/
theorem Closed.split (closed : Closed sep (c :: l)) (separator : sep c = true) :
    ∃ run d rest, l = run ++ d :: rest ∧ (∀ x ∈ run, sep x = true) ∧ sep d = false := by
  induction l generalizing c with
  | nil =>
      rw [closed c rfl] at separator
      cases separator
  | cons x l ih =>
      cases next : sep x with
      | false => exact ⟨[], x, l, rfl, nofun, next⟩
      | true =>
          have closedRest : Closed sep (x :: l) := Closed.right (a := [c]) closed
          obtain ⟨run, d, rest, split, all, solid⟩ := ih closedRest next
          exact ⟨x :: run, d, rest, by rw [split]; rfl, List.forall_mem_cons.mpr ⟨next, all⟩, solid⟩

/-- The last element stays, when it is no separator. -/
theorem getLast?_squeezeFrom (closed : Closed sep l) :
    (squeezeFrom sep before l).getLast? = l.getLast? := by
  induction l generalizing before with
  | nil => rfl
  | cons c l ih =>
      by_cases last : l = []
      · subst last
        have solid : sep c = false := closed c rfl
        rw [squeezeFrom_keep (by rw [solid]; rfl)]
        rfl
      · have same : (c :: l).getLast? = l.getLast? := List.getLast?_cons_of_ne_nil last
        have closedRest : Closed sep l := by
          intro d here
          exact closed d (same.symm ▸ here)
        have some : l.getLast? ≠ none := List.getLast?_eq_none_iff.not.mpr last
        rw [same]
        cases dropped : sep c && before with
        | true => rw [squeezeFrom, if_pos dropped, ih closedRest]
        | false =>
            have later : (squeezeFrom sep (sep c) l).getLast? = l.getLast? := ih closedRest
            rw [squeezeFrom_keep dropped, List.getLast?_cons_of_ne_nil, later]
            intro empty
            rw [empty] at later
            exact some later.symm

end Squeeze

end Pcm.Squeeze
