import Pcm.Lib.PointerWalk

/-!
# Items with lengths

Items that lie one after the other up to a position, each beginning with a header from which its length is
known. A walk goes from an item to the next one by that length; it ends unless it comes to an item of length
zero.
-/

namespace Pcm.LengthWalk

open PointerWalk

variable (length : Nat → Nat) (header stop : Nat)

/-- There is an item at a position, and it is longer than `least`. -/
def Fits (least pos : Nat) : Prop := pos + header ≤ stop ∧ least < length pos ∧ pos + length pos ≤ stop

instance (least pos : Nat) : Decidable (Fits length header stop least pos) := instDecidableAnd

variable {length header stop} in
theorem Fits.shortens {least pos : Nat} (fits : Fits length header stop least pos) :
    stop - (pos + length pos) < stop - pos := by
  obtain ⟨-, positive, within⟩ := fits
  omega

/-- The positions of the items from a position on, up to the first one that is not longer than `least`. -/
def items (least pos : Nat) : List Nat :=
  if _fits : Fits length header stop least pos then pos :: items least (pos + length pos) else []
termination_by stop - pos
decreasing_by exact _fits.shortens

/-- The position after these items. -/
def rest (least pos : Nat) : Nat :=
  if _fits : Fits length header stop least pos then rest least (pos + length pos) else pos
termination_by stop - pos
decreasing_by exact _fits.shortens

/-- The position that the walk goes to. -/
def next (pos : Nat) : Option Nat :=
  if pos + header ≤ stop ∧ pos + length pos ≤ stop then some (pos + length pos) else none

/-- An item of length zero. -/
def Stuck (pos : Nat) : Prop := pos + header ≤ stop ∧ length pos = 0

section Items

variable {length header stop} {least pos : Nat}

theorem items_fits (fits : Fits length header stop least pos) :
    items length header stop least pos = pos :: items length header stop least (pos + length pos) := by
  rw [items, dif_pos fits]

theorem items_last (last : ¬ Fits length header stop least pos) : items length header stop least pos = [] := by
  rw [items, dif_neg last]

theorem rest_fits (fits : Fits length header stop least pos) :
    rest length header stop least pos = rest length header stop least (pos + length pos) := by
  rw [rest, dif_pos fits]

theorem rest_last (last : ¬ Fits length header stop least pos) : rest length header stop least pos = pos := by
  rw [rest, dif_neg last]

theorem Fits.positive (fits : Fits length header stop least pos) : Fits length header stop 0 pos :=
  ⟨fits.1, Nat.lt_of_le_of_lt (Nat.zero_le least) fits.2.1, fits.2.2⟩

/-- The items that are long enough come first, then those after the first other one. -/
theorem items_append (least pos : Nat) : items length header stop 0 pos =
    items length header stop least pos ++ items length header stop 0 (rest length header stop least pos) := by
  induction pos using items.induct length header stop least with
  | case1 pos fits ih => rw [items_fits fits.positive, items_fits fits, rest_fits fits, ih, List.cons_append]
  | case2 pos last => rw [items_last last, rest_last last, List.nil_append]

theorem next_fits (fits : Fits length header stop 0 pos) : next length header stop pos = some (pos + length pos) :=
  if_pos ⟨fits.1, fits.2.2⟩

/-- After the last item the walk ends, or it stays there for good. -/
theorem next_last (last : ¬ Fits length header stop 0 pos) (moves : ¬ Stuck length header stop pos) :
    next length header stop pos = none := by
  refine if_neg ?_
  rintro ⟨there, within⟩
  exact last ⟨there, Nat.pos_of_ne_zero (fun zero => moves ⟨there, zero⟩), within⟩

theorem next_stuck (stuck : Stuck length header stop pos) :
    next length header stop pos = some pos := by
  have same : pos + length pos = pos := by rw [stuck.2, Nat.add_zero]
  rw [next, same]
  exact if_pos ⟨stuck.1, Nat.le_trans (Nat.le_add_right pos header) stuck.1⟩

theorem stops_iff (pos : Nat) :
    Stops (next length header stop) pos ↔ ¬ Stuck length header stop (rest length header stop 0 pos) := by
  induction pos using items.induct length header stop 0 with
  | case1 pos fits ih => rw [stops_next (next_fits fits), ih, rest_fits fits]
  | case2 pos last =>
      rw [rest_last last]
      constructor
      · intro stops stuck
        exact stops.acyclic pos .refl (.single (next_stuck stuck))
      · exact fun moves => .last (next_last last moves)

end Items

/-! ## Loops over the items -/

section Loops

variable {length header stop} {ε A : Type} {body : Nat × A → Except ε (Next (Nat × A) A)} {visit : A → Nat → A}

/-- What a loop over the items does, which changes something at each. -/
def Visits (length : Nat → Nat) (header stop : Nat) (visit : A → Nat → A)
    (body : Nat × A → Except ε (Next (Nat × A) A)) : Prop :=
  ∀ pos a, body (pos, a) = .ok
    (match next length header stop pos with
    | some b => .again (b, visit a pos)
    | none => .done a)

theorem Visits.walks (visits : Visits length header stop visit body) : Walks (next length header stop) Prod.fst body := by
  rintro ⟨pos, a⟩
  have step := visits pos a
  cases link : next length header stop pos with
  | none =>
      rw [link] at step
      intro t again
      rw [step] at again
      cases again
  | some b =>
      rw [link] at step
      exact ⟨_, step, rfl⟩

theorem Visits.ends_iff (visits : Visits length header stop visit body) (pos : Nat) (a : A) :
    (Bounded.loop body (pos, a)).Ends ↔ ¬ Stuck length header stop (rest length header stop 0 pos) :=
  (visits.walks.ends_iff (pos, a)).trans (stops_iff pos)

/-- The loop visits the items in order. -/
theorem Visits.returns (visits : Visits length header stop visit body) {pos : Nat}
    (moves : ¬ Stuck length header stop (rest length header stop 0 pos)) (a : A) :
    (Bounded.loop body (pos, a)).Returns (.ok ((items length header stop 0 pos).foldl visit a)) := by
  induction pos using items.induct length header stop 0 generalizing a with
  | case1 pos fits ih =>
      rw [rest_fits fits] at moves
      have step := visits pos a
      rw [next_fits fits] at step
      rw [items_fits fits, List.foldl_cons]
      exact (Bounded.returns_again step).mpr (ih moves _)
  | case2 pos last =>
      rw [rest_last last] at moves
      have step := visits pos a
      rw [next_last last moves] at step
      rw [items_last last]
      exact Bounded.returns_done step

end Loops

end Pcm.LengthWalk
