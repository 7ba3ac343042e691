import Mathlib.Data.List.ReduceOption

/-!
# Dividing a sequence into groups

The elements of a sequence are put into groups one after the other. Among the elements stand marks that
end a group; a group also ends before an element that does not fit into it. What a group can hold is a
parameter.
-/

namespace Pcm.Grouping

variable {α : Type} (fits : List α → α → Bool)

/-- A group that has ended, unless it is empty. -/
def close (group : List α) : List (List α) := if group = [] then [] else [group]

/-- The groups of a sequence in which `none` is a mark, after a group that was begun. There are none
where an element does not even fit into an empty group. -/
def groupsFrom (begun : List α) : List (Option α) → Option (List (List α))
  | [] => some (close begun)
  | none :: rest => (groupsFrom [] rest).map (close begun ++ ·)
  | some a :: rest =>
      if fits begun a then groupsFrom (begun ++ [a]) rest
      else if fits [] a then (groupsFrom [a] rest).map (close begun ++ ·)
      else none

/-- What stands between the marks. -/
def blocks : List (Option α) → List (List α)
  | [] => [[]]
  | none :: rest => [] :: blocks rest
  | some a :: rest => (blocks rest).modifyHead (a :: ·)

/-- Every element fits into the part of the group before it. -/
def AllFit (group : List α) : Prop :=
  ∀ before a after, group = before ++ a :: after → fits before a = true

/-- How a block is divided: no element is lost, no group is empty or too large, and a group ends only
before an element that does not fit into it. -/
structure Division (block : List α) (groups : List (List α)) : Prop where
  flatten : groups.flatten = block
  nonempty : ∀ group ∈ groups, group ≠ []
  allFit : ∀ group ∈ groups, AllFit fits group
  full : ∀ before group a rest after, groups = before ++ group :: (a :: rest) :: after →
    fits group a = false

variable {fits} {begun group block : List α} {groups : List (List α)} {tokens : List (Option α)}

/-! ## Parts of a sequence -/

/-- A part of a sequence closes some groups and leaves another one begun. -/
def Advance (fits : List α → α → Bool) (begun : List α) (tokens : List (Option α))
    (closed : List (List α)) (next : List α) : Prop :=
  ∀ rest, groupsFrom fits begun (tokens ++ rest) = (groupsFrom fits next rest).map (closed ++ ·)

theorem advance_nil : Advance fits begun [] [] begun := by
  intro rest
  simp

theorem Advance.append {middle next : List α} {more : List (Option α)} {closed closed' : List (List α)}
    (first : Advance fits begun tokens closed middle) (second : Advance fits middle more closed' next) :
    Advance fits begun (tokens ++ more) (closed ++ closed') next := by
  intro rest
  rw [List.append_assoc, first, second, Option.map_map]
  congr 1
  funext groups
  exact (List.append_assoc ..).symm

theorem advance_mark : Advance fits begun [none] (close begun) [] := fun _ => rfl

theorem advance_fits {a : α} (next : fits begun a = true) :
    Advance fits begun [some a] [] (begun ++ [a]) := by
  intro rest
  rw [List.cons_append, groupsFrom, if_pos next]
  simp

theorem advance_full {a : α} (full : fits begun a = false) (alone : fits [] a = true) :
    Advance fits begun [some a] (close begun) [a] := by
  intro rest
  rw [List.cons_append, groupsFrom, if_neg (Bool.eq_false_iff.mp full), if_pos alone]
  rfl

/-! ## One group -/

theorem allFit_nil : AllFit fits [] := by
  intro before a after impossible
  exact absurd impossible (by simp)

theorem AllFit.concat {a : α} (all : AllFit fits group) (next : fits group a = true) :
    AllFit fits (group ++ [a]) := by
  intro before b after shape
  rcases List.eq_nil_or_concat after with rfl | ⟨init, last, rfl⟩
  · obtain ⟨rfl, same⟩ := List.append_inj' shape rfl
    obtain rfl : a = b := by simpa using same
    exact next
  · rw [List.concat_eq_append, ← List.cons_append, ← List.append_assoc] at shape
    exact all before b init (List.append_inj' shape rfl).1

theorem AllFit.init {a : α} (all : AllFit fits (group ++ [a])) : AllFit fits group := by
  intro before b after shape
  refine all before b (after ++ [a]) ?_
  rw [shape, List.append_assoc, List.cons_append]

theorem close_of_ne (nonempty : group ≠ []) : close group = [group] := if_neg nonempty

theorem flatten_close : (close group).flatten = group := by
  rw [close]
  split
  · rename_i empty
    rw [empty]
    rfl
  · exact List.flatten_singleton

theorem division_close (all : AllFit fits group) : Division fits group (close group) := by
  refine ⟨flatten_close, ?_, ?_, ?_⟩
  · intro g member
    rw [close] at member
    split at member
    · cases member
    · rename_i nonempty
      rwa [List.mem_singleton.mp member]
  · intro g member
    rw [close] at member
    split at member
    · cases member
    · rwa [List.mem_singleton.mp member]
  · intro before g a rest after shape
    have long := congrArg List.length shape
    have short : (close group).length ≤ 1 := by
      rw [close]
      split <;> simp
    simp only [List.length_append, List.length_cons] at long
    omega

/-! ## All groups -/

/-- One more group in front of a divided block, which does not take in the first element of it. -/
theorem Division.cons {a : α} (rest : Division fits (a :: block) groups) (nonempty : group ≠ [])
    (all : AllFit fits group) (full : fits group a = false) :
    Division fits (group ++ a :: block) (group :: groups) := by
  refine ⟨?_, ?_, ?_, ?_⟩
  · rw [List.flatten_cons, rest.flatten]
  · intro g member
    rcases List.mem_cons.mp member with rfl | later
    · exact nonempty
    · exact rest.nonempty g later
  · intro g member
    rcases List.mem_cons.mp member with rfl | later
    · exact all
    · exact rest.allFit g later
  · intro before g b tail after shape
    cases before with
    | nil =>
        obtain ⟨rfl, following⟩ := List.cons.inj shape
        have first := rest.flatten
        rw [following, List.flatten_cons, List.cons_append] at first
        rw [(List.cons.inj first).1]
        exact full
    | cons h before => exact rest.full before g b tail after (List.cons.inj shape).2

/-- The groups after one that was begun divide the rest of its block, and the other blocks. -/
theorem divided_from (ran : groupsFrom fits begun tokens = some groups) (all : AllFit fits begun) :
    ∃ first rest firstGroups restGroups, blocks tokens = first :: rest ∧
      Division fits (begun ++ first) firstGroups ∧ List.Forall₂ (Division fits) rest restGroups ∧
      groups = firstGroups ++ restGroups.flatten := by
  induction tokens generalizing begun groups with
  | nil =>
      obtain rfl : close begun = groups := Option.some.inj ran
      refine ⟨[], [], close begun, [], rfl, ?_, .nil, ?_⟩
      · rw [List.append_nil]
        exact division_close all
      · simp
  | cons token tokens ih =>
      cases token with
      | none =>
          obtain ⟨later, ranLater, rfl⟩ := Option.map_eq_some_iff.mp ran
          obtain ⟨first, rest, firstGroups, restGroups, shape, divided, others, rfl⟩ :=
            ih ranLater allFit_nil
          refine ⟨[], first :: rest, close begun, firstGroups :: restGroups, ?_, ?_, ?_, rfl⟩
          · rw [blocks, shape]
          · rw [List.append_nil]
            exact division_close all
          · exact .cons divided others
      | some a =>
          rw [groupsFrom] at ran
          split at ran
          · rename_i next
            obtain ⟨first, rest, firstGroups, restGroups, shape, divided, others, rfl⟩ :=
              ih ran (all.concat next)
            refine ⟨a :: first, rest, firstGroups, restGroups, ?_, ?_, others, rfl⟩
            · rw [blocks, shape]
              rfl
            · rwa [List.append_assoc] at divided
          · rename_i full
            split at ran
            · rename_i alone
              obtain ⟨later, ranLater, rfl⟩ := Option.map_eq_some_iff.mp ran
              obtain ⟨first, rest, firstGroups, restGroups, shape, divided, others, rfl⟩ :=
                ih ranLater (allFit_nil.concat alone)
              have nonempty : begun ≠ [] := by
                rintro rfl
                exact full alone
              refine ⟨a :: first, rest, begun :: firstGroups, restGroups, ?_, ?_, others, ?_⟩
              · rw [blocks, shape]
                rfl
              · exact divided.cons nonempty all (Bool.eq_false_iff.mpr full)
              · rw [close_of_ne nonempty]
                rfl
            · cases ran

/-- Every block is divided by the groups. -/
theorem exists_divided (ran : groupsFrom fits [] tokens = some groups) :
    ∃ divided, List.Forall₂ (Division fits) (blocks tokens) divided ∧ groups = divided.flatten := by
  obtain ⟨first, rest, firstGroups, restGroups, shape, division, others, rfl⟩ :=
    divided_from ran allFit_nil
  refine ⟨firstGroups :: restGroups, ?_, rfl⟩
  rw [shape]
  exact .cons division others

/-- No element is lost, repeated or moved. -/
theorem flatten_groups (ran : groupsFrom fits begun tokens = some groups) :
    groups.flatten = begun ++ tokens.reduceOption := by
  induction tokens generalizing begun groups with
  | nil =>
      obtain rfl : close begun = groups := Option.some.inj ran
      rw [flatten_close, List.reduceOption_nil, List.append_nil]
  | cons token tokens ih =>
      cases token with
      | none =>
          obtain ⟨later, ranLater, rfl⟩ := Option.map_eq_some_iff.mp ran
          rw [List.flatten_append, flatten_close, ih ranLater, List.reduceOption_cons_of_none]
          rfl
      | some a =>
          rw [groupsFrom] at ran
          rw [List.reduceOption_cons_of_some]
          split at ran
          · rw [ih ran, List.append_assoc]
            rfl
          · split at ran
            · obtain ⟨later, ranLater, rfl⟩ := Option.map_eq_some_iff.mp ran
              rw [List.flatten_append, flatten_close, ih ranLater]
              rfl
            · cases ran

theorem allFit_of_divided {divided : List (List (List α))} {all : List (List α)}
    (divisions : List.Forall₂ (Division fits) all divided) :
    ∀ group ∈ divided.flatten, AllFit fits group := by
  induction divisions with
  | nil => exact fun _ member => absurd member List.not_mem_nil
  | cons division _ ih =>
      intro group member
      rcases List.mem_append.mp member with first | later
      · exact division.allFit group first
      · exact ih group later

end Pcm.Grouping
