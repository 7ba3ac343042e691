import Mathlib.Data.List.Nodup

/-!
# Steps that throw

A step over inputs that throws for the bad ones and goes on for the good ones. Folds of such steps are such
steps themselves, for lists of inputs.
-/

namespace Pcm.Throwing

variable {ε σ α : Type}

/-- The step goes on to `next` for the inputs that are good in a state, and throws for the others. -/
structure Steps (good : α → Prop) (next : σ → α → σ) (step : σ → α → Except ε σ) : Prop where
  ok : ∀ s a, good a → step s a = .ok (next s a)
  error : ∀ s a, ¬ good a → ∃ e, step s a = .error e

variable {good : α → Prop} {next : σ → α → σ} {step : σ → α → Except ε σ}

theorem foldlM_cons_ok {s t : σ} {a : α} {l : List α} (first : step s a = .ok t) :
    (a :: l).foldlM step s = l.foldlM step t := by
  rw [List.foldlM_cons, first]
  rfl

theorem foldlM_cons_error {s : σ} {a : α} {l : List α} {e : ε} (first : step s a = .error e) :
    (a :: l).foldlM step s = .error e := by
  rw [List.foldlM_cons, first]
  rfl

theorem bind_eq_ok {β γ : Type} {x : Except ε β} {f : β → Except ε γ} {r : γ} (done : x >>= f = .ok r) :
    ∃ value, x = .ok value ∧ f value = .ok r := by
  cases x with
  | error e => cases done
  | ok value => exact ⟨value, rfl, done⟩

theorem of_map_ok {β γ : Type} {x : Except ε β} {f : β → γ} {r : γ} (ok : x.map f = .ok r) :
    ∃ value, x = .ok value ∧ f value = r := by
  cases x with
  | error e => cases ok
  | ok value => exact ⟨value, rfl, Except.ok.inj ok⟩

/-- What every step keeps of the inputs so far and the state holds after all of them. -/
theorem foldlM_invariant {I : List α → σ → Prop} {l : List α} {s t : σ}
    (keeps : ∀ done a s t, a ∈ l → I done s → step s a = .ok t → I (done ++ [a]) t) (start : I [] s)
    (ran : l.foldlM step s = .ok t) : I l t := by
  have later : ∀ rest done s, rest ⊆ l → I done s → rest.foldlM step s = .ok t → I (done ++ rest) t := by
    intro rest
    induction rest with
    | nil =>
        intro done s _ holds ran
        rw [← Except.ok.inj ran, List.append_nil]
        exact holds
    | cons a rest ih =>
        intro done s within holds ran
        obtain ⟨next, first, ran⟩ := bind_eq_ok ran
        have kept := keeps done a s next (within List.mem_cons_self) holds first
        rw [List.append_cons]
        exact ih _ next (fun b mem => within (List.mem_cons_of_mem a mem)) kept ran
  exact later l [] s (fun a mem => mem) start ran

/-- A fold goes on if all its inputs are good. -/
theorem Steps.foldlM (steps : Steps good next step) :
    Steps (fun l : List α => ∀ a ∈ l, good a) (fun s l => l.foldl next s) (fun s l => l.foldlM step s) where
  ok := by
    intro s l all
    induction l generalizing s with
    | nil => rfl
    | cons a l ih =>
        obtain ⟨first, later⟩ := List.forall_mem_cons.mp all
        rw [foldlM_cons_ok (steps.ok s a first)]
        exact ih (next s a) later
  error := by
    intro s l bad
    induction l generalizing s with
    | nil => exact absurd (fun a member => absurd member List.not_mem_nil) bad
    | cons a l ih =>
        by_cases first : good a
        · rw [foldlM_cons_ok (steps.ok s a first)]
          exact ih (next s a) (fun later => bad (List.forall_mem_cons.mpr ⟨first, later⟩))
        · obtain ⟨e, thrown⟩ := steps.error s a first
          exact ⟨e, foldlM_cons_error thrown⟩

theorem Steps.ok_iff (steps : Steps good next step) {s t : σ} {a : α} :
    step s a = .ok t ↔ good a ∧ next s a = t := by
  constructor
  · intro result
    by_cases fine : good a
    · rw [steps.ok s a fine] at result
      exact ⟨fine, Except.ok.inj result⟩
    · obtain ⟨e, thrown⟩ := steps.error s a fine
      rw [thrown] at result
      cases result
  · rintro ⟨fine, rfl⟩
    exact steps.ok s a fine

/-! ## Keys that must not come twice -/

/-- The step throws for the bad inputs, and for those with a key that is known or comes twice. -/
structure Guarded {κ : Type} (good : α → Prop) (keys : α → List κ) (known : σ → κ → Prop)
    (step : σ → α → Except ε σ) : Prop where
  ok_iff : ∀ s a, (∃ t, step s a = .ok t) ↔ good a ∧ (keys a).Nodup ∧ ∀ k ∈ keys a, ¬ known s k
  known_iff : ∀ s a t, step s a = .ok t → ∀ k, known t k ↔ known s k ∨ k ∈ keys a

/-- A fold of such steps is one, with the keys of all inputs. -/
theorem Guarded.foldlM {κ : Type} {keys : α → List κ} {known : σ → κ → Prop} (guarded : Guarded good keys known step) :
    Guarded (fun l : List α => ∀ a ∈ l, good a) (fun l => l.flatMap keys) known (fun s l => l.foldlM step s) where
  ok_iff := by
    intro s l
    induction l generalizing s with
    | nil => exact ⟨fun _ => by simp, fun _ => ⟨s, rfl⟩⟩
    | cons a l ih =>
        rw [List.forall_mem_cons, List.flatMap_cons, List.nodup_append', List.forall_mem_append]
        constructor
        · rintro ⟨t, ran⟩
          obtain ⟨middle, first, later⟩ := bind_eq_ok ran
          obtain ⟨fine, distinct, fresh⟩ := (guarded.ok_iff s a).mp ⟨middle, first⟩
          obtain ⟨fines, distincts, freshs⟩ := (ih middle).mp ⟨t, later⟩
          have known := guarded.known_iff s a middle first
          refine ⟨⟨fine, fines⟩, ⟨distinct, distincts, ?_⟩, fresh, ?_⟩
          · intro k own other
            exact freshs k other ((known k).mpr (.inr own))
          · intro k other old
            exact freshs k other ((known k).mpr (.inl old))
        · rintro ⟨⟨fine, fines⟩, ⟨distinct, distincts, apart⟩, fresh, freshs⟩
          obtain ⟨middle, first⟩ := (guarded.ok_iff s a).mpr ⟨fine, distinct, fresh⟩
          have known := guarded.known_iff s a middle first
          obtain ⟨t, later⟩ := (ih middle).mpr ⟨fines, distincts, fun k other held =>
            ((known k).mp held).elim (freshs k other) (fun own => apart own other)⟩
          exact ⟨t, (foldlM_cons_ok first).trans later⟩
  known_iff := by
    intro s l t ran k
    refine foldlM_invariant (I := fun done t => known t k ↔ known s k ∨ k ∈ done.flatMap keys) ?_ (by simp) ran
    intro done a middle t _ holds first
    rw [guarded.known_iff middle a t first k, holds, List.flatMap_append, List.mem_append, or_assoc]
    simp

/-! ## Two readings -/

/-- Both throw the same, or what they give is related. -/
inductive Agree {τ : Type} (R : σ → τ → Prop) : Except ε σ → Except ε τ → Prop
  | ok {s : σ} {t : τ} (related : R s t) : Agree R (.ok s) (.ok t)
  | error (e : ε) : Agree R (.error e) (.error e)

namespace Agree

variable {τ υ ρ : Type} {R : σ → τ → Prop} {Q : υ → ρ → Prop}

theorem bind {x : Except ε σ} {y : Except ε τ} (first : Agree R x y) {f : σ → Except ε υ} {g : τ → Except ε ρ}
    (later : ∀ s t, R s t → Agree Q (f s) (g t)) : Agree Q (x >>= f) (y >>= g) := by
  cases first with
  | ok related => exact later _ _ related
  | error e => exact .error e

/-- Folds agree where their steps do. -/
theorem foldlM {f : σ → α → Except ε σ} {g : τ → α → Except ε τ}
    (step : ∀ s t a, R s t → Agree R (f s a) (g t a)) (l : List α) {s : σ} {t : τ} (related : R s t) :
    Agree R (l.foldlM f s) (l.foldlM g t) := by
  induction l generalizing s t with
  | nil => exact .ok related
  | cons a l ih =>
      rw [List.foldlM_cons, List.foldlM_cons]
      exact (step s t a related).bind fun _ _ next => ih next

end Agree

end Pcm.Throwing
