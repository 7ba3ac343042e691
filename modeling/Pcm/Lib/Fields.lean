import Mathlib.Data.List.Basic

/-!
# Lines of separated fields

A line is printed piece by piece, with separators behind or before the pieces. `none` is a separator.
Blocks of a line may be left out.
-/

namespace Pcm.Fields

variable {α β γ : Type*}

abbrev Line (α : Type*) := List (Option α)

/-- What stands between the separators. -/
def fields : Line α → List (List α)
  | [] => [[]]
  | none :: line => [] :: fields line
  | some a :: line =>
      match fields line with
      | [] => [[a]]
      | first :: later => (a :: first) :: later

/-- Each piece with a separator behind it. -/
def terminated (as : List α) : Line α := as.flatMap fun a => [some a, none]

/-- Each piece with a separator before it. -/
def led (as : List α) : Line α := as.flatMap fun a => [none, some a]

/-- A block that may be left out. -/
def optional (c : Bool) (block : List α) : List α := if c then block else []

@[simp] theorem terminated_cons (a : α) (as : List α) :
    terminated (a :: as) = some a :: none :: terminated as := rfl

@[simp] theorem terminated_append (as bs : List α) :
    terminated (as ++ bs) = terminated as ++ terminated bs := List.flatMap_append

@[simp] theorem led_nil : led ([] : List α) = [] := rfl

@[simp] theorem led_append (as bs : List α) : led (as ++ bs) = led as ++ led bs := List.flatMap_append

/-- Separators before the pieces but for the first, and one behind the last. -/
theorem led_terminated (a : α) (as : List α) : some a :: led as ++ [none] = terminated (a :: as) := by
  induction as generalizing a with
  | nil => rfl
  | cons b as ih =>
      rw [terminated_cons, ← ih b]
      rfl

end Pcm.Fields
