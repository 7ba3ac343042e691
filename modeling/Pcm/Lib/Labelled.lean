import Mathlib.Data.List.Nodup

/-!
# Names with labels

Names that carry sets of labels, in the order in which the labels were put on them. Two of them are the
same when their names and their sets of labels are; the rules say when no two of a list are.
-/

namespace Pcm.Labelled

variable {ν κ β : Type}

structure Entry (ν κ : Type) where
  name : ν
  labels : List κ
  deriving DecidableEq, Repr

def Entry.Same (a b : Entry ν κ) : Prop := a.name = b.name ∧ ∀ label, label ∈ a.labels ↔ label ∈ b.labels

/-- Names without a label. -/
def plain (names : List ν) : List (Entry ν κ) := names.map (fun name => ⟨name, []⟩)

/-- The entries with one more label. -/
def within (label : κ) (entries : List (Entry ν κ)) : List (Entry ν κ) :=
  entries.map (fun entry => { entry with labels := label :: entry.labels })

def Distinct (xs : List (Entry ν κ)) : Prop := xs.Pairwise (fun a b => ¬ a.Same b)

/-- No entry of the one list is the same as one of the other. -/
def Apart (xs ys : List (Entry ν κ)) : Prop := ∀ a ∈ xs, ∀ b ∈ ys, ¬ a.Same b

def Lacks (label : κ) (xs : List (Entry ν κ)) : Prop := ∀ entry ∈ xs, label ∉ entry.labels

def names (xs : List (Entry ν κ)) : List ν := xs.map Entry.name

variable {label other : κ} {xs ys zs : List (Entry ν κ)}

/-! ## Names -/

@[simp] theorem names_plain (all : List ν) : names (plain all : List (Entry ν κ)) = all := by
  rw [names, plain, List.map_map]
  exact List.map_id _

@[simp] theorem names_append : names (xs ++ ys) = names xs ++ names ys := List.map_append

@[simp] theorem names_within : names (within label xs) = names xs := by
  rw [names, within, List.map_map]
  rfl

@[simp] theorem names_flatMap (g : β → List (Entry ν κ)) (bs : List β) :
    names (bs.flatMap g) = bs.flatMap (fun b => names (g b)) := List.map_flatMap

/-! ## Absent labels -/

theorem lacks_plain (names : List ν) : Lacks label (plain names) := by
  intro entry member
  obtain ⟨name, -, rfl⟩ := List.mem_map.mp member
  exact List.not_mem_nil

theorem Lacks.append (left : Lacks label xs) (right : Lacks label ys) : Lacks label (xs ++ ys) := by
  intro entry member
  rcases List.mem_append.mp member with first | second
  · exact left entry first
  · exact right entry second

theorem Lacks.within (different : label ≠ other) (inner : Lacks label xs) :
    Lacks label (Labelled.within other xs) := by
  intro entry member
  obtain ⟨entry, inside, rfl⟩ := List.mem_map.mp member
  exact List.not_mem_cons_of_ne_of_not_mem different (inner entry inside)

theorem lacks_flatMap {g : β → List (Entry ν κ)} {bs : List β} (each : ∀ b ∈ bs, Lacks label (g b)) :
    Lacks label (bs.flatMap g) := by
  intro entry member
  obtain ⟨b, isIn, member⟩ := List.mem_flatMap.mp member
  exact each b isIn entry member

/-! ## Lists that are apart -/

theorem Apart.symm (apart : Apart xs ys) : Apart ys xs :=
  fun b inSecond a inFirst same =>
    apart a inFirst b inSecond ⟨same.1.symm, fun label => (same.2 label).symm⟩

theorem Apart.append (left : Apart xs ys) (right : Apart xs zs) : Apart xs (ys ++ zs) := by
  intro a inFirst b member
  rcases List.mem_append.mp member with second | third
  · exact left a inFirst b second
  · exact right a inFirst b third

theorem apart_of_names (different : ∀ name ∈ names xs, name ∉ names ys) : Apart xs ys := by
  intro a inFirst b inSecond same
  refine different a.name (List.mem_map_of_mem inFirst) ?_
  rw [same.1]
  exact List.mem_map_of_mem inSecond

/-- Every entry of the one list has a label that the other list does not. -/
theorem apart_of_labels (labelled : ∀ a ∈ xs, ∃ label ∈ a.labels, Lacks label ys) : Apart xs ys := by
  intro a inFirst b inSecond same
  obtain ⟨label, present, lacks⟩ := labelled a inFirst
  exact lacks b inSecond ((same.2 label).mp present)

theorem apart_within (lacks : Lacks label ys) : Apart (within label xs) ys := by
  refine apart_of_labels (fun a member => ⟨label, ?_, lacks⟩)
  obtain ⟨entry, -, rfl⟩ := List.mem_map.mp member
  exact List.mem_cons_self ..

/-- A label further inside. -/
theorem apart_within_within (lacks : Lacks label ys) : Apart (within other (within label xs)) ys := by
  refine apart_of_labels (fun a member => ⟨label, ?_, lacks⟩)
  obtain ⟨entry, inside, rfl⟩ := List.mem_map.mp member
  obtain ⟨entry, -, rfl⟩ := List.mem_map.mp inside
  exact List.mem_cons_of_mem _ (List.mem_cons_self ..)

theorem apart_flatMap {g : β → List (Entry ν κ)} {bs : List β} (each : ∀ b ∈ bs, Apart (g b) ys) :
    Apart (bs.flatMap g) ys := by
  intro a member
  obtain ⟨b, isIn, member⟩ := List.mem_flatMap.mp member
  exact each b isIn a member

/-! ## Lists without repetition -/

theorem Distinct.append (left : Distinct xs) (right : Distinct ys) (apart : Apart xs ys) :
    Distinct (xs ++ ys) :=
  List.pairwise_append.mpr ⟨left, right, apart⟩

theorem distinct_plain {names : List ν} (nodup : names.Nodup) :
    Distinct (plain names : List (Entry ν κ)) :=
  List.pairwise_map.mpr (nodup.imp (fun different same => different same.1))

/-- A label that is new keeps different entries different. -/
theorem Distinct.within (inner : Distinct xs) (fresh : Lacks label xs) :
    Distinct (Labelled.within label xs) := by
  refine List.pairwise_map.mpr (inner.imp_of_mem ?_)
  intro a b inFirst inSecond different same
  refine different ⟨same.1, fun other => ?_⟩
  by_cases equal : other = label
  · subst equal
    exact iff_of_false (fresh a inFirst) (fresh b inSecond)
  · have members := same.2 other
    simpa [equal] using members

theorem distinct_flatMap {g : β → List (Entry ν κ)} {bs : List β}
    (each : ∀ b ∈ bs, Distinct (g b)) (apart : bs.Pairwise (fun b c => Apart (g b) (g c))) :
    Distinct (bs.flatMap g) :=
  List.pairwise_flatMap.mpr ⟨each, apart⟩

/-- Every part of the list has a label of its own. -/
theorem distinct_flatMap_within {f : β → κ} {g : β → List (Entry ν κ)} {bs : List β}
    (nodup : (bs.map f).Nodup) (each : ∀ b ∈ bs, Distinct (g b))
    (fresh : ∀ b ∈ bs, ∀ c ∈ bs, Lacks (f b) (g c)) :
    Distinct (bs.flatMap (fun b => Labelled.within (f b) (g b))) := by
  refine distinct_flatMap (fun b isIn => (each b isIn).within (fresh b isIn b isIn)) ?_
  refine (List.pairwise_map.mp nodup).imp_of_mem ?_
  intro b c inFirst inSecond different
  exact apart_within ((fresh b inFirst c inSecond).within different)

end Pcm.Labelled
