import Mathlib.Logic.Relation
import Mathlib.Order.Preorder.Finite
import Pcm.Lib.Loop

/-!
# Following pointers

Elements of which each has at most one next element, as in a linked list that is read from somewhere. A walk
over such a list ends unless it comes to an element from which it returns to that element.
-/

namespace Pcm.PointerWalk

variable {α : Type} (next : α → Option α)

/-- `b` is the next element after `a`. -/
def Link (a b : α) : Prop := next a = some b

/-- The walk from an element comes to one without a next element. -/
inductive Stops : α → Prop
  | last {a : α} (none : next a = none) : Stops a
  | next {a b : α} (link : next a = some b) (stops : Stops b) : Stops a

/-- No element that the walk comes to is met again. -/
def Acyclic (a : α) : Prop := ∀ b, Relation.ReflTransGen (Link next) a b → ¬ Relation.TransGen (Link next) b b

variable {next} {a b : α}

theorem Stops.acyclic (stops : Stops next a) : Acyclic next a := by
  induction stops with
  | @last a none =>
      intro b reached returns
      have start : a = b ∨ ∃ c, Link next a c ∧ Relation.ReflTransGen (Link next) c b :=
        Relation.ReflTransGen.cases_head reached
      rcases start with rfl | ⟨c, link, -⟩
      · obtain ⟨c, link, -⟩ := Relation.TransGen.head'_iff.mp returns
        rw [Link, none] at link
        cases link
      · rw [Link, none] at link
        cases link
  | @next a b link stops ih =>
      intro c reached returns
      rcases Relation.ReflTransGen.cases_head reached with rfl | ⟨d, first, later⟩
      · -- The first element is left to `b` and met again from there, so `b` is met again as well.
        obtain ⟨d, first, back⟩ := Relation.TransGen.head'_iff.mp returns
        rw [Link, link] at first
        cases first
        exact ih b .refl (Relation.TransGen.tail' back link)
      · rw [Link, link] at first
        cases first
        exact ih c later returns

theorem exists_link (endless : ¬ Stops next a) : ∃ b, next a = some b ∧ ¬ Stops next b := by
  cases link : next a with
  | none => exact absurd (.last link) endless
  | some b => exact ⟨b, rfl, fun stops => endless (.next link stops)⟩

/-- The element after `n` steps of a walk that does not stop. -/
noncomputable def chain (endless : ¬ Stops next a) : Nat → { b : α // ¬ Stops next b }
  | 0 => ⟨a, endless⟩
  | n + 1 => ⟨(exists_link (chain endless n).2).choose, (exists_link (chain endless n).2).choose_spec.2⟩

theorem chain_link (endless : ¬ Stops next a) (n : Nat) :
    Link next (chain endless n).1 (chain endless (n + 1)).1 :=
  (exists_link (chain endless n).2).choose_spec.1

theorem chain_later (endless : ¬ Stops next a) {m n : Nat} (before : m < n) :
    Relation.TransGen (Link next) (chain endless m).1 (chain endless n).1 := by
  induction n with
  | zero => exact absurd before (Nat.not_lt_zero m)
  | succ n ih =>
      rcases Nat.lt_succ_iff_lt_or_eq.mp before with earlier | rfl
      · exact (ih earlier).tail (chain_link endless n)
      · exact .single (chain_link endless m)

theorem chain_reached (endless : ¬ Stops next a) (n : Nat) :
    Relation.ReflTransGen (Link next) a (chain endless n).1 := by
  cases n with
  | zero => exact .refl
  | succ n => exact (chain_later endless (Nat.succ_pos n)).to_reflTransGen

/-- Where there are finitely many pointers, a walk that meets no element again stops. -/
theorem stops_of_acyclic (finite : { b | ∃ a, next a = some b }.Finite) (acyclic : Acyclic next a) : Stops next a := by
  by_contra endless
  have within : ∀ n, (chain endless (n + 1)).1 ∈ { b | ∃ a, next a = some b } :=
    fun n => ⟨_, chain_link endless n⟩
  obtain ⟨m, n, before, same⟩ := Set.Finite.exists_lt_map_eq_of_forall_mem within finite
  have returns := chain_later endless (Nat.succ_lt_succ before)
  rw [← same] at returns
  exact acyclic _ (chain_reached endless (m + 1)) returns

theorem stops_iff_acyclic (finite : { b | ∃ a, next a = some b }.Finite) : Stops next a ↔ Acyclic next a :=
  ⟨Stops.acyclic, stops_of_acyclic finite⟩

theorem stops_next (link : next a = some b) : Stops next a ↔ Stops next b := by
  constructor
  · intro stops
    cases stops with
    | last none =>
        rw [link] at none
        cases none
    | next other stops =>
        rw [link] at other
        cases other
        exact stops
  · exact .next link

/-! ## Loops -/

section Loops

variable {ε σ β : Type} {body : σ → Except ε (Next σ β)} {position : σ → α}

/-- What a loop does that goes from one element to the next. -/
def Walks (next : α → Option α) (position : σ → α) (body : σ → Except ε (Next σ β)) : Prop :=
  ∀ s, match next (position s) with
    | some b => ∃ t, body s = .ok (.again t) ∧ position t = b
    | none => ∀ t, body s ≠ .ok (.again t)

/-- Such a loop ends exactly when the walk stops. -/
theorem Walks.ends_iff (walks : Walks next position body) (s : σ) :
    (Bounded.loop body s).Ends ↔ Stops next (position s) := by
  constructor
  · rintro ⟨r, fuel, same⟩
    change Bounded.iterate body fuel s = some r at same
    induction fuel generalizing s with
    | zero => cases same
    | succ fuel ih =>
        have step := walks s
        cases link : next (position s) with
        | none => exact .last link
        | some b =>
            rw [link] at step
            obtain ⟨t, again, rfl⟩ := step
            rw [Bounded.iterate, again] at same
            exact .next link (ih t same)
  · intro stops
    generalize start : position s = a at stops
    induction stops generalizing s with
    | last none =>
        have step := walks s
        rw [start, none] at step
        rcases result : body s with e | t | b
        · exact Bounded.ends_of_error result
        · exact absurd result (step t)
        · exact Bounded.ends_of_done result
    | next link stops ih =>
        have step := walks s
        rw [start, link] at step
        obtain ⟨t, again, there⟩ := step
        exact (Bounded.ends_again again).mpr (ih t there)

end Loops

end Pcm.PointerWalk
