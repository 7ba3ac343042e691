import Mathlib.Data.BitVec

/-!
# Hash tables with a comparison of their own

A table whose keys are hashed and compared by functions that may ignore some of their parts. An
entry is found if the hash values are the same and the comparison holds; that this is the
comparison alone is what the hash function has to respect. The second half is about tables that
remember the values of a function.
-/

namespace Pcm

variable {K V : Type*}

/-- The hash function and the comparison of a table. -/
structure Keying (K : Type*) where
  hash : K → BitVec 64
  same : K → K → Bool
  equivalence : Equivalence fun a b => same a b = true
  hash_eq : ∀ {a b}, same a b = true → hash a = hash b

/-- The entries of a table, the newest first. -/
abbrev KeyedMap (K V : Type*) := List (K × V)

/-- Assignment to `m[key]`. -/
def KeyedMap.put (m : KeyedMap K V) (key : K) (value : V) : KeyedMap K V := (key, value) :: m

/-- Assignment to `m[key]` that keeps one entry for every key. -/
def KeyedMap.assign [BEq K] (m : KeyedMap K V) (key : K) (value : V) : KeyedMap K V :=
  if (m.lookup key).isSome then m.map fun entry => if key == entry.1 then (key, value) else entry
  else m.put key value

section Assign

variable [BEq K] [LawfulBEq K] {m : KeyedMap K V} {key other : K} {value : V}

theorem lookup_replace_self (present : (m.lookup key).isSome) :
    (m.map fun entry => if key == entry.1 then (key, value) else entry).lookup key = some value := by
  induction m with
  | nil => cases present
  | cons entry rest ih =>
      obtain ⟨first, old⟩ := entry
      rw [List.lookup_cons] at present
      rw [List.map_cons]
      cases own : key == first with
      | true => simp
      | false =>
          rw [own] at present
          rw [if_neg (by simp), List.lookup_cons, own]
          exact ih present

theorem lookup_replace_ne (different : (other == key) = false) :
    (m.map fun entry => if key == entry.1 then (key, value) else entry).lookup other = m.lookup other := by
  induction m with
  | nil => rfl
  | cons entry rest ih =>
      obtain ⟨first, old⟩ := entry
      rw [List.map_cons, List.lookup_cons, List.lookup_cons, ih]
      cases own : key == first with
      | true => rw [if_pos rfl, ← eq_of_beq own, different]
      | false => rw [if_neg (by simp)]

theorem KeyedMap.lookup_assign :
    (m.assign key value).lookup other = if other == key then some value else m.lookup other := by
  unfold assign
  by_cases present : (m.lookup key).isSome = true
  · rw [if_pos present]
    cases same : other == key with
    | true =>
        rw [eq_of_beq same]
        exact lookup_replace_self present
    | false => exact lookup_replace_ne same
  · rw [if_neg present, put, List.lookup_cons]
    cases other == key with
    | true => rfl
    | false => rfl

end Assign

namespace Keying

open KeyedMap

variable (keying : Keying K)

/-- Whether a lookup takes one key for the other. -/
def hits (a b : K) : Bool := keying.hash a == keying.hash b && keying.same a b

def find (m : KeyedMap K V) (key : K) : Option V :=
  (m.find? fun entry => keying.hits entry.1 key).map Prod.snd

/-- Reading `m[key]`, which adds a default value where the key is missing. -/
def getOrInsert (m : KeyedMap K V) (key : K) (default : V) : V × KeyedMap K V :=
  match keying.find m key with
  | some value => (value, m)
  | none => (default, put m key default)

/-- Adding a value only where the key is missing. -/
def ensure (m : KeyedMap K V) (key : K) (value : V) : KeyedMap K V :=
  if (keying.find m key).isNone then put m key value else m

variable {keying}

theorem same_symm {a b : K} : keying.same a b = keying.same b a := by
  rw [Bool.eq_iff_iff]
  exact ⟨keying.equivalence.symm, keying.equivalence.symm⟩

@[simp] theorem same_refl (a : K) : keying.same a a = true := keying.equivalence.refl a

/-- The hash values never decide. -/
@[simp] theorem hits_eq (a b : K) : keying.hits a b = keying.same a b := by
  cases h : keying.same a b with
  | false => simp [hits, h]
  | true => simp [hits, h, keying.hash_eq h]

@[simp] theorem find_nil (key : K) : keying.find ([] : KeyedMap K V) key = none := rfl

theorem find_put (m : KeyedMap K V) (key key' : K) (value : V) :
    keying.find (put m key value) key' =
      if keying.same key key' then some value else keying.find m key' := by
  unfold find put
  rw [List.find?_cons]
  cases h : keying.same key key' with
  | false => simp [h]
  | true => simp [h]

/-- A loop that stores `f k` under each `k` of a list. -/
theorem find_foldl_put {f : K → V} (respects : ∀ {a b}, keying.same a b = true → f a = f b)
    (l : List K) (m : KeyedMap K V) (key : K) :
    keying.find (l.foldl (fun m k => put m k (f k)) m) key =
      if l.any (keying.same key) then some (f key) else keying.find m key := by
  induction l generalizing m with
  | nil => rfl
  | cons k l ih =>
      rw [List.foldl_cons, ih, find_put, List.any_cons]
      cases rest : l.any (keying.same key) with
      | true => simp
      | false =>
          cases h : keying.same key k with
          | false => simp [same_symm (a := k), h]
          | true => simp [same_symm (a := k), h, respects h]

/-! ## Remembered values -/

/-- What a table holds are values of `f`. -/
def Sound (keying : Keying K) (f : K → V) (m : KeyedMap K V) : Prop :=
  ∀ key value, keying.find m key = some value → value = f key

/-- The value for `key` is there. -/
def Holds (keying : Keying K) (m : KeyedMap K V) (key : K) : Prop := (keying.find m key).isSome

theorem sound_nil (f : K → V) : keying.Sound f [] := by
  intro key value found
  simp at found

theorem Sound.find_eq {f : K → V} {m : KeyedMap K V} (sound : keying.Sound f m) {key : K}
    (holds : keying.Holds m key) : keying.find m key = some (f key) := by
  obtain ⟨value, found⟩ := Option.isSome_iff_exists.mp holds
  rw [found, sound key value found]

/-- Reading a remembered value changes nothing. -/
theorem Sound.getOrInsert_eq {f : K → V} {m : KeyedMap K V} (sound : keying.Sound f m) {key : K}
    (holds : keying.Holds m key) (default : V) :
    keying.getOrInsert m key default = (f key, m) := by
  unfold getOrInsert
  rw [sound.find_eq holds]

theorem Sound.ensure {f : K → V} (respects : ∀ {a b}, keying.same a b = true → f a = f b)
    {m : KeyedMap K V} (sound : keying.Sound f m) (key : K) :
    keying.Sound f (keying.ensure m key (f key)) := by
  unfold Keying.ensure
  split
  · intro key' value found
    rw [find_put] at found
    by_cases h : keying.same key key' = true
    · rw [if_pos h] at found
      rw [← respects h, Option.some.inj found]
    · rw [if_neg h] at found
      exact sound key' value found
  · exact sound

theorem holds_ensure_self (m : KeyedMap K V) (key : K) (value : V) :
    keying.Holds (keying.ensure m key value) key := by
  unfold Keying.ensure Holds
  cases found : keying.find m key with
  | none => simp [find_put]
  | some old => simp [found]

theorem Holds.ensure {m : KeyedMap K V} {key' : K} (holds : keying.Holds m key') (key : K)
    (value : V) : keying.Holds (keying.ensure m key value) key' := by
  unfold Keying.ensure
  split
  · unfold Holds
    rw [find_put]
    split
    · rfl
    · exact holds
  · exact holds

section Loop

variable {f : K → V} (respects : ∀ {a b}, keying.same a b = true → f a = f b)
include respects

/-- A loop that remembers the values for a list of keys. -/
theorem Sound.foldl_ensure {m : KeyedMap K V} (sound : keying.Sound f m) (l : List K) :
    keying.Sound f (l.foldl (fun m k => keying.ensure m k (f k)) m) := by
  induction l generalizing m with
  | nil => exact sound
  | cons k l ih => exact ih (sound.ensure respects k)

end Loop

theorem Holds.foldl_ensure {f : K → V} {m : KeyedMap K V} {key : K} (holds : keying.Holds m key)
    (l : List K) : keying.Holds (l.foldl (fun m k => keying.ensure m k (f k)) m) key := by
  induction l generalizing m with
  | nil => exact holds
  | cons k l ih => exact ih (holds.ensure k (f k))

theorem holds_foldl_ensure {f : K → V} {l : List K} {key : K} (mem : key ∈ l) (m : KeyedMap K V) :
    keying.Holds (l.foldl (fun m k => keying.ensure m k (f k)) m) key := by
  induction l generalizing m with
  | nil => simp at mem
  | cons k l ih =>
      rw [List.foldl_cons]
      rcases List.mem_cons.mp mem with rfl | tail
      · exact (holds_ensure_self m key (f key)).foldl_ensure l
      · exact ih tail _

end Keying

end Pcm
