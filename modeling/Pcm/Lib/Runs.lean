import Mathlib.Data.List.Basic

/-!
# Runs of a deterministic system

A system with states `σ` moves by `step` under events `ε`. `run` follows a list of events. Two
predicates talk about a whole run: `Always` holds of every state it visits, the first included, and
`Each` holds of every event in the state before it. `always_iff_each` is the rule by which an
invariant is characterised: if one step keeps it exactly under a condition, a run keeps it in every
state exactly when each of its steps meets the condition.
-/

namespace Pcm.Runs

variable {σ ε : Type*} (step : σ → ε → σ) (P : σ → Prop) (C : σ → ε → Prop)

def run (s : σ) (events : List ε) : σ := events.foldl step s

@[simp] theorem run_nil (s : σ) : run step s [] = s := rfl

@[simp] theorem run_cons (s : σ) (event : ε) (events : List ε) :
    run step s (event :: events) = run step (step s event) events := rfl

theorem run_append (s : σ) (before after : List ε) :
    run step s (before ++ after) = run step (run step s before) after :=
  List.foldl_append

/-- `P` holds of every state of the run from `s`. -/
def Always (s : σ) (events : List ε) : Prop :=
  ∀ before, before <+: events → P (run step s before)

/-- Every event of the run from `s` meets `C` in the state before it. -/
def Each (s : σ) : List ε → Prop
  | [] => True
  | event :: events => C s event ∧ Each (step s event) events

theorem always_nil (s : σ) : Always step P s [] ↔ P s := by
  simp [Always]

theorem always_cons (s : σ) (event : ε) (events : List ε) :
    Always step P s (event :: events) ↔ P s ∧ Always step P (step s event) events := by
  constructor
  · intro always
    refine ⟨always [] List.nil_prefix, ?_⟩
    intro before isPrefix
    exact always (event :: before) (List.cons_prefix_cons.mpr ⟨rfl, isPrefix⟩)
  · rintro ⟨first, later⟩ before isPrefix
    rcases List.prefix_cons_iff.mp isPrefix with rfl | ⟨tail, rfl, tailPrefix⟩
    · exact first
    · exact later tail tailPrefix

variable {step P C}

theorem always_iff_each (exact_step : ∀ s event, P s → (P (step s event) ↔ C s event)) :
    ∀ {s : σ} (events : List ε), P s → (Always step P s events ↔ Each step C s events) := by
  intro s events
  induction events generalizing s with
  | nil =>
      intro holds
      simp [always_nil, Each, holds]
  | cons event events ih =>
      intro holds
      rw [always_cons, Each, ← exact_step s event holds]
      constructor
      · rintro ⟨-, later⟩
        have next := later [] List.nil_prefix
        exact ⟨next, (ih next).mp later⟩
      · rintro ⟨next, later⟩
        exact ⟨holds, (ih next).mpr later⟩

end Pcm.Runs
