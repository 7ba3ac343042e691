import Mathlib.Data.Nat.Init
import Mathlib.Tactic.Basic

/-!
# Loops that may not end

A computation that may throw and whose loops may not end is given as a function of a bound on the
number of iterations: with too small a bound there is no result. It ends if some bound gives a result,
which is then the result for every larger bound.
-/

namespace Pcm

variable {ε σ α β : Type}

/-- A computation, given a bound on the iterations of each of its loops. -/
def Bounded (ε α : Type) := Nat → Option (Except ε α)

/-- What a loop does after one iteration. -/
inductive Next (σ α : Type)
  | again (s : σ)
  | done (a : α)

namespace Bounded

def bind (f : Bounded ε α) (g : α → Bounded ε β) : Bounded ε β := fun fuel =>
  match f fuel with
  | none => none
  | some (.error e) => some (.error e)
  | some (.ok a) => g a fuel

instance monadBounded : Monad (Bounded ε) where
  pure a := fun _ => some (.ok a)
  bind := bind

def lift (result : Except ε α) : Bounded ε α := fun _ => some result

/-- At most as many iterations as the bound. -/
def iterate (body : σ → Except ε (Next σ α)) : Nat → σ → Option (Except ε α)
  | 0, _ => none
  | fuel + 1, s =>
      match body s with
      | .error e => some (.error e)
      | .ok (.done a) => some (.ok a)
      | .ok (.again next) => iterate body fuel next

def loop (body : σ → Except ε (Next σ α)) (s : σ) : Bounded ε α := fun fuel => iterate body fuel s

/-- A larger bound does not change the result. -/
def Stable (f : Bounded ε α) : Prop := ∀ k l r, k ≤ l → f k = some r → f l = some r

def Returns (f : Bounded ε α) (r : Except ε α) : Prop := ∃ fuel, f fuel = some r

def Ends (f : Bounded ε α) : Prop := ∃ r, f.Returns r

/-! ## Sequences -/

variable {f : Bounded ε α} {g : α → Bounded ε β}

theorem stable_lift (result : Except ε α) : (lift result).Stable :=
  fun _ _ _ _ same => same

theorem stable_pure (a : α) : (pure a : Bounded ε α).Stable :=
  fun _ _ _ _ same => same

theorem returns_lift {result r : Except ε α} : (lift result).Returns r ↔ result = r := by
  constructor
  · rintro ⟨_, same⟩
    exact Option.some.inj same
  · rintro rfl
    exact ⟨0, rfl⟩

theorem bind_none {fuel : Nat} (result : f fuel = none) : (f >>= g) fuel = none := by
  change f.bind g fuel = none
  simp [bind, result]

theorem bind_error {fuel : Nat} {e : ε} (result : f fuel = some (.error e)) :
    (f >>= g) fuel = some (.error e) := by
  change f.bind g fuel = _
  simp [bind, result]

theorem bind_ok {fuel : Nat} {a : α} (result : f fuel = some (.ok a)) :
    (f >>= g) fuel = g a fuel := by
  change f.bind g fuel = _
  simp [bind, result]

theorem Stable.bind (first : f.Stable) (second : ∀ a, (g a).Stable) : (f >>= g).Stable := by
  intro k l r le same
  rcases result : f k with - | e | a
  · rw [bind_none result] at same
    cases same
  · rw [bind_error result] at same
    rw [bind_error (first k l _ le result), same]
  · rw [bind_ok result] at same
    rw [bind_ok (first k l _ le result)]
    exact second a k l r le same

theorem returns_bind (first : f.Stable) (second : ∀ a, (g a).Stable) {r : Except ε β} :
    (f >>= g).Returns r ↔
      (∃ e, f.Returns (.error e) ∧ r = .error e) ∨ ∃ a, f.Returns (.ok a) ∧ (g a).Returns r := by
  constructor
  · rintro ⟨fuel, same⟩
    rcases result : f fuel with - | e | a
    · rw [bind_none result] at same
      cases same
    · rw [bind_error result] at same
      exact Or.inl ⟨e, ⟨fuel, result⟩, (Option.some.inj same).symm⟩
    · rw [bind_ok result] at same
      exact Or.inr ⟨a, ⟨fuel, result⟩, ⟨fuel, same⟩⟩
  · rintro (⟨e, ⟨fuel, failed⟩, rfl⟩ | ⟨a, ⟨k, ok⟩, ⟨l, same⟩⟩)
    · exact ⟨fuel, bind_error failed⟩
    · refine ⟨max k l, ?_⟩
      rw [bind_ok (first k _ _ (Nat.le_max_left k l) ok)]
      exact second a l _ r (Nat.le_max_right k l) same

/-- A sequence ends if its first part does and, unless that throws, what follows does. -/
theorem ends_bind (first : f.Stable) (second : ∀ a, (g a).Stable) :
    (f >>= g).Ends ↔ ∃ r, f.Returns r ∧ ∀ a, r = .ok a → (g a).Ends := by
  constructor
  · rintro ⟨r, returns⟩
    rcases (returns_bind first second).mp returns with ⟨e, failed, -⟩ | ⟨a, ok, later⟩
    · exact ⟨.error e, failed, nofun⟩
    · refine ⟨.ok a, ok, ?_⟩
      rintro b ⟨rfl⟩
      exact ⟨r, later⟩
  · rintro ⟨e | a, returns, later⟩
    · exact ⟨.error e, (returns_bind first second).mpr (Or.inl ⟨e, returns, rfl⟩)⟩
    · obtain ⟨r, further⟩ := later a rfl
      exact ⟨r, (returns_bind first second).mpr (Or.inr ⟨a, returns, further⟩)⟩

theorem Returns.unique (stable : f.Stable) {r r' : Except ε α} (first : f.Returns r)
    (second : f.Returns r') : r = r' := by
  obtain ⟨k, atK⟩ := first
  obtain ⟨l, atL⟩ := second
  have low := stable k _ r (Nat.le_max_left k l) atK
  have high := stable l _ r' (Nat.le_max_right k l) atL
  rw [low] at high
  exact Option.some.inj high

/-- After a part that returns. -/
theorem returns_bind_of_ok (first : f.Stable) (second : ∀ a, (g a).Stable) {a : α}
    (ok : f.Returns (.ok a)) {r : Except ε β} : (f >>= g).Returns r ↔ (g a).Returns r := by
  rw [returns_bind first second]
  constructor
  · rintro (⟨e, failed, -⟩ | ⟨b, returns, later⟩)
    · cases failed.unique first ok
    · cases returns.unique first ok
      exact later
  · intro later
    exact Or.inr ⟨a, ok, later⟩

theorem returns_bind_of_error (first : f.Stable) (second : ∀ a, (g a).Stable) {e : ε}
    (failed : f.Returns (.error e)) : (f >>= g).Returns (.error e) :=
  (returns_bind first second).mpr (Or.inl ⟨e, failed, rfl⟩)

theorem ends_lift (result : Except ε α) : (lift result).Ends := ⟨result, 0, rfl⟩

/-- After a part that ends. -/
theorem ends_bind_of_ends (first : f.Stable) (second : ∀ a, (g a).Stable) (ends : f.Ends) :
    (f >>= g).Ends ↔ ∀ a, f.Returns (.ok a) → (g a).Ends := by
  rw [ends_bind first second]
  constructor
  · rintro ⟨r, returns, later⟩ a ok
    exact later a (returns.unique first ok)
  · intro later
    obtain ⟨r, returns⟩ := ends
    exact ⟨r, returns, fun a same => later a (same ▸ returns)⟩

/-- Before parts that all end. -/
theorem ends_bind_left (first : f.Stable) (second : ∀ a, (g a).Stable) (later : ∀ a, (g a).Ends) :
    (f >>= g).Ends ↔ f.Ends := by
  rw [ends_bind first second]
  constructor
  · rintro ⟨r, returns, -⟩
    exact ⟨r, returns⟩
  · rintro ⟨r, returns⟩
    exact ⟨r, returns, fun a _ => later a⟩

/-! ## Loops -/

section Loops

variable {body : σ → Except ε (Next σ α)} {s next : σ}

theorem stable_loop (body : σ → Except ε (Next σ α)) (s : σ) : (loop body s).Stable := by
  intro k l r le same
  change iterate body k s = some r at same
  change iterate body l s = some r
  induction k generalizing l s with
  | zero => cases same
  | succ k ih =>
      obtain ⟨l, rfl⟩ : ∃ m, l = m + 1 := ⟨l - 1, by omega⟩
      simp only [iterate] at same ⊢
      rcases result : body s with e | next | a
      · rw [result] at same
        exact same
      · rw [result] at same
        exact ih next l (by omega) same
      · rw [result] at same
        exact same

theorem ends_of_error {e : ε} (failed : body s = .error e) : (loop body s).Ends :=
  ⟨.error e, 1, by simp [loop, iterate, failed]⟩

theorem ends_of_done {a : α} (done : body s = .ok (.done a)) : (loop body s).Ends :=
  ⟨.ok a, 1, by simp [loop, iterate, done]⟩

theorem returns_done {a : α} (done : body s = .ok (.done a)) : (loop body s).Returns (.ok a) :=
  ⟨1, by simp [loop, iterate, done]⟩

theorem returns_again {r : Except ε α} (again : body s = .ok (.again next)) :
    (loop body s).Returns r ↔ (loop body next).Returns r := by
  constructor
  · rintro ⟨fuel, same⟩
    cases fuel with
    | zero => cases same
    | succ fuel =>
        refine ⟨fuel, ?_⟩
        simpa [loop, iterate, again] using same
  · rintro ⟨fuel, same⟩
    refine ⟨fuel + 1, ?_⟩
    simpa [loop, iterate, again] using same

theorem ends_again (again : body s = .ok (.again next)) :
    (loop body s).Ends ↔ (loop body next).Ends := by
  simp only [Ends, returns_again again]

/-- A loop ends if each further iteration makes something smaller. -/
theorem ends_of_measure {P : σ → Prop} (size : σ → Nat)
    (smaller : ∀ {s next}, P s → body s = .ok (.again next) → P next ∧ size next < size s)
    (holds : P s) : (loop body s).Ends := by
  induction measured : size s using Nat.strong_induction_on generalizing s with
  | _ n ih =>
      rcases result : body s with e | next | a
      · exact ends_of_error result
      · obtain ⟨holds', less⟩ := smaller holds result
        exact (ends_again result).mpr (ih (size next) (measured ▸ less) holds' rfl)
      · exact ends_of_done result

/-- A loop does not end if there is always a further iteration. -/
theorem not_ends_of_invariant {P : σ → Prop}
    (again : ∀ {s}, P s → ∃ next, body s = .ok (.again next) ∧ P next) (holds : P s) :
    ¬ (loop body s).Ends := by
  rintro ⟨r, fuel, same⟩
  change iterate body fuel s = some r at same
  induction fuel generalizing s with
  | zero => cases same
  | succ fuel ih =>
      obtain ⟨next, result, holds'⟩ := again holds
      simp only [iterate, result] at same
      exact ih holds' same

/-- A loop that ends, but never by itself, throws. -/
theorem error_of_invariant {P : σ → Prop} (never : ∀ {s a}, P s → body s ≠ .ok (.done a))
    (keeps : ∀ {s next}, P s → body s = .ok (.again next) → P next) (holds : P s)
    (ends : (loop body s).Ends) : ∃ e, (loop body s).Returns (.error e) := by
  obtain ⟨r, fuel, same⟩ := ends
  change iterate body fuel s = some r at same
  induction fuel generalizing s with
  | zero => cases same
  | succ fuel ih =>
      simp only [iterate] at same
      rcases result : body s with e | next | a
      · exact ⟨e, 1, by simp [loop, iterate, result]⟩
      · rw [result] at same
        obtain ⟨e, failed⟩ := ih (keeps holds result) same
        exact ⟨e, (returns_again result).mpr failed⟩
      · exact absurd result (never holds)

end Loops

/-! ## Two loops side by side -/

section Alongside

variable {τ γ : Type} {body : σ → Except ε (Next σ α)} {body' : τ → Except ε (Next τ β)}

/-- One iteration of each of two loops: both throw the same, both are done, or both go on. -/
def Steps (R : σ → τ → Prop) (Q : α → β → Prop) : Except ε (Next σ α) → Except ε (Next τ β) → Prop
  | .error e, .error e' => e = e'
  | .ok (.done a), .ok (.done b) => Q a b
  | .ok (.again s), .ok (.again t) => R s t
  | _, _ => False

theorem Steps.mono {R R' : σ → τ → Prop} {Q : α → β → Prop} (weaker : ∀ {s t}, R s t → R' s t)
    {x : Except ε (Next σ α)} {y : Except ε (Next τ β)} (steps : Steps R Q x y) : Steps R' Q x y := by
  rcases x with e | next | a
  · rcases y with e' | next' | b
    · exact steps
    · exact steps.elim
    · exact steps.elim
  · rcases y with e' | next' | b
    · exact steps.elim
    · exact weaker steps
    · exact steps.elim
  · rcases y with e' | next' | b
    · exact steps.elim
    · exact steps.elim
    · exact steps

/-- What two loops that go on side by side are used for is the same. -/
theorem loop_alongside {R : σ → τ → Prop} {f : α → γ} {f' : β → γ}
    (steps : ∀ {s t}, R s t → Steps R (fun a b => f a = f' b) (body s) (body' t)) {s : σ} {t : τ} (related : R s t) :
    (do let a ← loop body s; return f a : Bounded ε γ) = (do let b ← loop body' t; return f' b) := by
  funext fuel
  change Bounded.bind (loop body s) (fun a => pure (f a)) fuel = Bounded.bind (loop body' t) (fun b => pure (f' b)) fuel
  simp only [bind, loop]
  induction fuel generalizing s t with
  | zero => rfl
  | succ fuel ih =>
      have step := steps related
      simp only [iterate]
      rcases first : body s with e | next | a
      · rcases second : body' t with e' | next' | b
        · rw [first, second] at step
          rw [show e = e' from step]
        · rw [first, second] at step
          exact step.elim
        · rw [first, second] at step
          exact step.elim
      · rcases second : body' t with e' | next' | b
        · rw [first, second] at step
          exact step.elim
        · rw [first, second] at step
          exact ih step
        · rw [first, second] at step
          exact step.elim
      · rcases second : body' t with e' | next' | b
        · rw [first, second] at step
          exact step.elim
        · rw [first, second] at step
          exact step.elim
        · rw [first, second] at step
          have same : f a = f' b := step
          change some (Except.ok (f a)) = some (Except.ok (f' b))
          rw [same]

end Alongside

end Bounded

end Pcm
