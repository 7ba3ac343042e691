import Mathlib.Data.List.Basic
import Mathlib.Logic.Function.Conjugate

/-!
# Interleavings of several parties

A trace lists the actions that several parties perform on one state, each with the party. Where
the actions of different parties commute, only what each party does in itself decides the outcome:
`perform_eq_of_part`.
-/

namespace Pcm.Interleaving

variable {κ α σ : Type*}

/-- The state after a trace. -/
def perform (act : α → σ → σ) (s : σ) (trace : List (κ × α)) : σ :=
  trace.foldl (fun s entry => act entry.2 s) s

/-- The actions of one party, in its order. -/
def part [DecidableEq κ] (party : κ) (trace : List (κ × α)) : List α :=
  (trace.filter fun entry => entry.1 = party).map Prod.snd

/-- Actions of different parties commute. `may` tells the actions that a party can perform. -/
def Independent (act : α → σ → σ) (may : κ → α → Prop) : Prop :=
  ∀ k l, k ≠ l → ∀ a b, may k a → may l b → Function.Commute (act a) (act b)

variable {act : α → σ → σ} {may : κ → α → Prop}

@[simp] theorem perform_nil (s : σ) : perform act s ([] : List (κ × α)) = s := rfl

@[simp] theorem perform_cons (s : σ) (entry : κ × α) (trace : List (κ × α)) :
    perform act s (entry :: trace) = perform act (act entry.2 s) trace := rfl

theorem perform_append (s : σ) (before after : List (κ × α)) :
    perform act s (before ++ after) = perform act (perform act s before) after :=
  List.foldl_append

/-- A list of actions as the trace of one party. -/
def asTrace (k : κ) (actions : List α) : List (κ × α) := actions.map fun a => (k, a)

theorem mem_asTrace {k : κ} {actions : List α} {entry : κ × α} :
    entry ∈ asTrace k actions ↔ entry.1 = k ∧ entry.2 ∈ actions := by
  obtain ⟨l, a⟩ := entry
  constructor
  · intro member
    obtain ⟨b, here, same⟩ := List.mem_map.mp member
    cases same
    exact ⟨rfl, here⟩
  · intro member
    obtain ⟨rfl, here⟩ := member
    exact List.mem_map.mpr ⟨a, here, rfl⟩

section Parts

variable [DecidableEq κ]

@[simp] theorem part_nil (k : κ) : part k ([] : List (κ × α)) = [] := rfl

@[simp] theorem part_cons_self (k : κ) (a : α) (trace : List (κ × α)) :
    part k ((k, a) :: trace) = a :: part k trace := by
  simp [part]

theorem part_cons_of_ne {k l : κ} (other : l ≠ k) (a : α) (trace : List (κ × α)) :
    part k ((l, a) :: trace) = part k trace := by
  simp [part, other]

theorem part_append (k : κ) (before after : List (κ × α)) :
    part k (before ++ after) = part k before ++ part k after := by
  simp [part]

@[simp] theorem part_asTrace_self (k : κ) (actions : List α) :
    part k (asTrace k actions) = actions := by
  simp [part, asTrace, List.filter_map, Function.comp_def]

theorem part_asTrace_of_ne {k l : κ} (other : l ≠ k) (actions : List α) :
    part k (asTrace l actions) = [] := by
  simp [part, asTrace, List.filter_map, Function.comp_def, other]

theorem mem_part {k : κ} {a : α} {trace : List (κ × α)} : a ∈ part k trace ↔ (k, a) ∈ trace := by
  simp [part]

/-- The first action of a party stands behind entries of other parties only. -/
theorem split_of_part_cons {k : κ} {a : α} {rest : List α} {trace : List (κ × α)}
    (first : part k trace = a :: rest) :
    ∃ before after, trace = before ++ (k, a) :: after ∧ (∀ entry ∈ before, entry.1 ≠ k) ∧
      part k after = rest := by
  induction trace with
  | nil => simp at first
  | cons entry trace ih =>
      obtain ⟨l, b⟩ := entry
      by_cases own : l = k
      · subst own
        rw [part_cons_self, List.cons.injEq] at first
        obtain ⟨rfl, tail⟩ := first
        exact ⟨[], trace, rfl, by simp, tail⟩
      · rw [part_cons_of_ne own] at first
        obtain ⟨before, after, rfl, others, tail⟩ := ih first
        refine ⟨(l, b) :: before, after, rfl, ?_, tail⟩
        intro entry member
        rcases List.mem_cons.mp member with rfl | member
        · exact own
        · exact others entry member

end Parts

/-- An action passes over a trace of other parties. -/
theorem perform_commute (independent : Independent act may) {k : κ} {a : α} (own : may k a)
    {trace : List (κ × α)} (others : ∀ entry ∈ trace, entry.1 ≠ k ∧ may entry.1 entry.2) (s : σ) :
    perform act (act a s) trace = act a (perform act s trace) := by
  induction trace generalizing s with
  | nil => rfl
  | cons entry trace ih =>
      obtain ⟨other, allowed⟩ := others entry List.mem_cons_self
      have swap := independent entry.1 k other entry.2 a allowed own s
      rw [perform_cons, perform_cons, swap]
      exact ih (fun entry member => others entry (List.mem_cons_of_mem _ member)) (act entry.2 s)

/-- Two traces with the same actions of each party lead to the same state. -/
theorem perform_eq_of_part [DecidableEq κ] (independent : Independent act may)
    {t u : List (κ × α)} (mayT : ∀ entry ∈ t, may entry.1 entry.2)
    (mayU : ∀ entry ∈ u, may entry.1 entry.2) (same : ∀ k, part k t = part k u) (s : σ) :
    perform act s t = perform act s u := by
  induction t generalizing u s with
  | nil =>
      cases u with
      | nil => rfl
      | cons entry u =>
          have empty := same entry.1
          rw [part_nil, show entry = (entry.1, entry.2) from rfl, part_cons_self] at empty
          cases empty
  | cons entry t ih =>
      obtain ⟨k, a⟩ := entry
      have first := (same k).symm
      rw [part_cons_self] at first
      obtain ⟨before, after, rfl, others, tail⟩ := split_of_part_cons first
      have mayBefore : ∀ entry ∈ before, may entry.1 entry.2 := fun entry member =>
        mayU entry (List.mem_append_left _ member)
      have mayAfter : ∀ entry ∈ after, may entry.1 entry.2 := fun entry member =>
        mayU entry (List.mem_append_right _ (List.mem_cons_of_mem _ member))
      have own : may k a := mayT (k, a) List.mem_cons_self
      have rest : ∀ l, part l t = part l (before ++ after) := by
        intro l
        have both := same l
        rw [part_append] at both ⊢
        by_cases here : k = l
        · subst here
          have none : part k before = [] := by
            simpa [part] using others
          rw [part_cons_self, none, part_cons_self, List.nil_append] at both
          rw [none, List.nil_append]
          exact (List.cons.inj both).2
        · rwa [part_cons_of_ne here, part_cons_of_ne here] at both
      have mayRest : ∀ entry ∈ before ++ after, may entry.1 entry.2 := by
        intro entry member
        rcases List.mem_append.mp member with member | member
        · exact mayBefore entry member
        · exact mayAfter entry member
      calc perform act s ((k, a) :: t)
          = perform act (act a s) (before ++ after) :=
            ih (fun entry member => mayT entry (List.mem_cons_of_mem _ member)) mayRest rest _
        _ = perform act (act a (perform act s before)) after := by
            rw [perform_append, perform_commute independent own]
            intro entry member
            exact ⟨others entry member, mayBefore entry member⟩
        _ = perform act s (before ++ (k, a) :: after) := by
            rw [perform_append, perform_cons]

end Pcm.Interleaving
