import Mathlib.Logic.Function.Basic

/-!
# Mutexes

A family of mutexes with their owners, beside the place in the code at which each thread is. `Held` says
that a thread owns a mutex exactly where its code is between taking and releasing it. What takes or releases
a mutex keeps this, and no two threads are between the two for the same mutex.
-/

namespace Pcm.Mutex

variable {κ θ : Type*} [DecidableEq κ] [DecidableEq θ] {owner : κ → Option θ} {place : θ → Option κ}
  {k : κ} {t u : θ}

/-- `place` tells the mutex that a thread is inside of. -/
def Held (owner : κ → Option θ) (place : θ → Option κ) : Prop := ∀ k t, owner k = some t ↔ place t = some k

omit [DecidableEq κ] [DecidableEq θ] in
theorem held_free : Held (fun _ => none : κ → Option θ) (fun _ => none) := by
  intro k t
  simp

omit [DecidableEq κ] [DecidableEq θ] in
/-- At most one thread is inside. -/
theorem Held.exclusive (held : Held owner place) (inside : place t = some k) (also : place u = some k) :
    t = u := by
  have mine := (held k t).mpr inside
  have other := (held k u).mpr also
  rw [mine] at other
  exact Option.some.inj other

theorem Held.acquire (held : Held owner place) (free : owner k = none) (outside : place t = none) :
    Held (Function.update owner k (some t)) (Function.update place t (some k)) := by
  intro l u
  by_cases mutex : l = k
  · subst mutex
    rw [Function.update_self]
    by_cases thread : u = t
    · subst thread
      simp
    · have none_in : place u ≠ some l := fun inside => by
        rw [(held l u).mpr inside] at free
        cases free
      rw [Function.update_of_ne thread]
      exact ⟨fun same => absurd (Option.some.inj same).symm thread, fun inside => absurd inside none_in⟩
  · rw [Function.update_of_ne mutex]
    by_cases thread : u = t
    · subst thread
      have not_owner : owner l ≠ some u := fun owns => by
        rw [(held l u).mp owns] at outside
        cases outside
      rw [Function.update_self]
      exact ⟨fun owns => absurd owns not_owner, fun same => absurd (Option.some.inj same).symm mutex⟩
    · rw [Function.update_of_ne thread]
      exact held l u

theorem Held.release (held : Held owner place) (inside : place t = some k) :
    Held (Function.update owner k none) (Function.update place t none) := by
  intro l u
  by_cases thread : u = t
  · subst thread
    rw [Function.update_self]
    by_cases mutex : l = k
    · subst mutex
      simp
    · have not_owner : owner l ≠ some u := fun owns => by
        rw [(held l u).mp owns] at inside
        exact mutex (Option.some.inj inside)
      rw [Function.update_of_ne mutex]
      exact ⟨fun owns => absurd owns not_owner, fun none_eq => by cases none_eq⟩
  · rw [Function.update_of_ne thread]
    by_cases mutex : l = k
    · subst mutex
      rw [Function.update_self]
      exact ⟨fun none_eq => (by cases none_eq), fun also => absurd (held.exclusive also inside) thread⟩
    · rw [Function.update_of_ne mutex]
      exact held l u

omit [DecidableEq κ] in
/-- A step of the code inside or outside of the mutex. -/
theorem Held.stay (held : Held owner place) {now : Option κ} (here : place t = now) :
    Held owner (Function.update place t now) := by
  subst here
  rw [Function.update_eq_self]
  exact held

omit [DecidableEq κ] [DecidableEq θ] in
/-- A mutex that is not free has a thread inside. -/
theorem Held.inside (held : Held owner place) (taken : owner k ≠ none) : ∃ t, place t = some k := by
  obtain ⟨t, owns⟩ := Option.ne_none_iff_exists'.mp taken
  exact ⟨t, (held k t).mp owns⟩

end Pcm.Mutex
