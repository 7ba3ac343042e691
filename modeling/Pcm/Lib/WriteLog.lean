import Mathlib.Data.List.Basic

/-!
# Logs of register writes

A driver is observed through the writes it makes, in their order. `last` is the value that a
register holds afterwards, if it was written at all. Loops over devices give logs of the form
`l.flatMap f`; where each device has registers of its own, such a log restricted to one register is
the log of one pass.
-/

namespace Pcm.WriteLog

variable {Reg Val α : Type*} [DecidableEq Reg]

/-- The last value written to a register. -/
def last : List (Reg × Val) → Reg → Option Val
  | [], _ => none
  | w :: log, r => (last log r).or (if w.1 = r then some w.2 else none)

@[simp] theorem last_nil (r : Reg) : last ([] : List (Reg × Val)) r = none := rfl

theorem last_cons (w : Reg × Val) (log : List (Reg × Val)) (r : Reg) :
    last (w :: log) r = (last log r).or (if w.1 = r then some w.2 else none) := rfl

theorem last_append (a b : List (Reg × Val)) (r : Reg) :
    last (a ++ b) r = (last b r).or (last a r) := by
  induction a with
  | nil => simp
  | cons w a ih => rw [List.cons_append, last_cons, last_cons, ih, Option.or_assoc]

/-- A register that no write names keeps its value. -/
theorem last_eq_none {log : List (Reg × Val)} {r : Reg} (other : ∀ w ∈ log, w.1 ≠ r) :
    last log r = none := by
  induction log with
  | nil => rfl
  | cons w log ih =>
      rw [last_cons, ih fun v mem => other v (List.mem_cons_of_mem _ mem),
        if_neg (other w List.mem_cons_self), Option.or_none]

theorem last_isSome {log : List (Reg × Val)} {r : Reg} (written : ∃ v, (r, v) ∈ log) :
    (last log r).isSome := by
  obtain ⟨v, mem⟩ := written
  induction log with
  | nil => simp at mem
  | cons w log ih =>
      rw [last_cons, Option.isSome_or, Bool.or_eq_true]
      rcases List.mem_cons.mp mem with here | later
      · right
        rw [← here]
        simp
      · exact Or.inl (ih later)

theorem mem_of_last {log : List (Reg × Val)} {r : Reg} {v : Val} (h : last log r = some v) :
    (r, v) ∈ log := by
  induction log with
  | nil => simp at h
  | cons w log ih =>
      rw [last_cons, Option.or_eq_some_iff] at h
      rcases h with later | ⟨-, here⟩
      · exact List.mem_cons_of_mem _ (ih later)
      · split at here
        · next same => obtain rfl := Option.some.inj here; rw [← same]; exact List.mem_cons_self
        · simp at here

/-- A register that is only ever written with one value holds it. -/
theorem last_eq_of_forall {log : List (Reg × Val)} {r : Reg} {v : Val} (written : ∃ v, (r, v) ∈ log)
    (same : ∀ w ∈ log, w.1 = r → w.2 = v) : last log r = some v := by
  obtain ⟨u, hu⟩ := Option.isSome_iff_exists.mp (last_isSome written)
  rw [hu, show u = v from same (r, u) (mem_of_last hu) rfl]

/-- No pass of a loop writes the register. -/
theorem last_flatMap_eq_none {l : List α} {f : α → List (Reg × Val)} {r : Reg}
    (other : ∀ a ∈ l, last (f a) r = none) : last (l.flatMap f) r = none := by
  induction l with
  | nil => rfl
  | cons a l ih =>
      rw [List.flatMap_cons, last_append, other a List.mem_cons_self,
        ih fun b mem => other b (List.mem_cons_of_mem _ mem), Option.or_none]

/-- One pass of a loop writes the register. -/
theorem last_flatMap_eq {l : List α} {f : α → List (Reg × Val)} {r : Reg} {a : α} (mem : a ∈ l)
    (other : ∀ b ∈ l, b ≠ a → last (f b) r = none) : last (l.flatMap f) r = last (f a) r := by
  induction l with
  | nil => simp at mem
  | cons b l ih =>
      rw [List.flatMap_cons, last_append]
      have tail := fun later => ih later fun c h => other c (List.mem_cons_of_mem _ h)
      by_cases later : a ∈ l
      · rw [tail later]
        by_cases same : b = a
        · rw [same, Option.or_self]
        · rw [other b List.mem_cons_self same, Option.or_none]
      · obtain rfl : a = b := (List.mem_cons.mp mem).resolve_right later
        rw [last_flatMap_eq_none, Option.none_or]
        intro c h
        exact other c (List.mem_cons_of_mem _ h) fun same => later (same ▸ h)

end Pcm.WriteLog
