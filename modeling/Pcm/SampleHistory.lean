import Mathlib.Data.List.Induction
import Pcm.Lib.StdString
import Pcm.Lib.Runs

/-!
# The sample history of the server

`HTTPServer` keeps the last aggregators of its sampling thread (`pcm-sensor-server.cpp:3360-3384`) and
`/persecond/X` asks for two that are `X` samples apart (`pcm-sensor-server.cpp:3926-3957`). The bound of
the history, the bound on `X` and the test of the waiting loop are three places of the source.
-/

namespace Pcm

open StdString

namespace SampleHistory

variable {α : Type*}

/-! ## The history -/

/-- `HTTPServer::addAggregator`: the newest is the first. -/
def addAggregator (agVector : List α) (agp : α) : List α :=
  if (agp :: agVector).length > 30 then (agp :: agVector).dropLast else agp :: agVector

/-- The test of the loop in which `getAggregators` sleeps. -/
def tooFew (agVector : List α) (index index2 : Nat) : Bool :=
  agVector.length < max index index2 + 1

/-- What a call of `getAggregators` comes to in a state that does not change while it looks. -/
inductive Aggregators (α : Type*)
  | bug (what : String)
  | sleeps
  | pair (first second : α)

/-- `HTTPServer::getAggregators` -/
def getAggregators (agVector : List α) (index index2 : Nat) : Aggregators α :=
  if index = index2 then .bug "BUG: getAggregator: both indices are equal. Fix the code!"
  else if tooFew agVector index index2 then .sleeps
  else match agVector[index]?, agVector[index2]? with
    | some first, some second => .pair first second
    -- not reached, both indices are below the size
    | _, _ => .sleeps

/-- The history after a run of additions, the oldest of which is the first. -/
def history (added : List α) : List α := Runs.run addAggregator [] added

/-! ## The endpoint -/

/-- What `my_get_callback` does with a path that begins with `/persecond`. -/
inductive Persecond
  | samples (index : Nat)
  | badRequest (body : String)
  | notFound (body : String)
  deriving DecidableEq, Repr

/-- `seconds`, 0 if the conversion throws. -/
def seconds (digits : Bytes) : Nat :=
  match stoll 10 digits with
  | .ok value => toSizeT value
  | .error _ => 0

/-- The part after `/persecond/`, without a `/` at its end. -/
def persecondSeconds (text : Bytes) : Persecond :=
  if text.all isdigit then
    if 1 ≤ seconds text ∧ seconds text ≤ 30 then .samples (seconds text)
    else .badRequest "400 Bad Request. seconds equals 0 or seconds larger than 30 is not allowed"
  else .badRequest
    "400 Bad Request Request starts with /persecond/ but is not followed by numbers only."

/-- The branch of `my_get_callback` for paths that begin with `/persecond`, given what comes after
that. -/
def persecond : Bytes → Persecond
  | [] => .samples 1
  | [47] => .samples 1
  | 47 :: rest => persecondSeconds (if rest.getLast? = some 47 then rest.dropLast else rest)
  | _ :: _ =>
      .notFound "404 Bad Request. Request starts with /persecond but contains bad characters."

theorem persecondSeconds_bounds {digits : Bytes} {index : Nat}
    (accepted : persecondSeconds digits = .samples index) : 1 ≤ index ∧ index ≤ 30 := by
  simp only [persecondSeconds] at accepted
  split at accepted
  · split at accepted
    · rename_i bounds
      obtain rfl := Persecond.samples.inj accepted
      exact bounds
    · cases accepted
  · cases accepted

/-- The endpoint accepts no other distances than those from 1 to 30. -/
theorem persecond_bounds {path : Bytes} {index : Nat} (accepted : persecond path = .samples index) :
    1 ≤ index ∧ index ≤ 30 := by
  unfold persecond at accepted
  split at accepted
  · obtain rfl := Persecond.samples.inj accepted
    decide
  · obtain rfl := Persecond.samples.inj accepted
    decide
  · exact persecondSeconds_bounds accepted
  · cases accepted

/-! ## The states of the history -/

theorem addAggregator_take (all : List α) (agp : α) :
    addAggregator (all.take 30) agp = (agp :: all).take 30 := by
  by_cases few : all.length < 30
  · rw [List.take_of_length_le (by omega), List.take_of_length_le (by simp only [List.length_cons]; omega)]
    simp only [addAggregator, List.length_cons]
    rw [if_neg (by omega)]
  · have full : (all.take 30).length = 30 := by
      rw [List.length_take]
      omega
    simp only [addAggregator, List.length_cons, full]
    rw [if_pos (by decide), List.dropLast_eq_take, List.length_cons, full]
    simp [List.take_take]

/-- After any run of additions the history holds the newest 30, the newest first. -/
theorem history_eq (added : List α) : history added = added.reverse.take 30 := by
  induction added using List.reverseRecOn with
  | nil => rfl
  | append_singleton added agp ih =>
      rw [history, Runs.run_append, ← history, ih]
      simp only [Runs.run_cons, Runs.run_nil, addAggregator_take, List.reverse_append,
        List.reverse_singleton, List.singleton_append]

theorem length_history (added : List α) : (history added).length = min 30 added.length := by
  rw [history_eq, List.length_take, List.length_reverse]

theorem getElem?_history {added : List α} {index : Nat} (kept : index < 30)
    (enough : index < added.length) : (history added)[index]? = added[added.length - 1 - index]? := by
  rw [history_eq, List.getElem?_take_of_lt kept, List.getElem?_reverse enough]

/-- A call for samples `index` apart never gets beyond its waiting loop if `index` is 30. -/
theorem tooFew_history_iff {added : List α} {index : Nat} (enough : index + 1 ≤ added.length) :
    tooFew (history added) index 0 = true ↔ 30 ≤ index := by
  simp only [tooFew, length_history, decide_eq_true_eq]
  omega

/-- As soon as `index + 1` aggregators have been added, a call for samples `index` apart gets past its
waiting loop and gives back the one added `index` additions before the newest, with the newest, if
and only if `index` is not 30, the largest distance that the endpoint accepts. -/
theorem getAggregators_iff {path : Bytes} {index : Nat} (accepted : persecond path = .samples index)
    (added : List α) (enough : index + 1 ≤ added.length) :
    (tooFew (history added) index 0 = false ∧
      ∃ older newest, getAggregators (history added) index 0 = .pair older newest ∧
        added[added.length - 1 - index]? = some older ∧ added.getLast? = some newest) ↔
      index ≠ 30 := by
  obtain ⟨atLeast, atMost⟩ := persecond_bounds accepted
  constructor
  · rintro ⟨passes, -⟩ rfl
    rw [(tooFew_history_iff enough).mpr (Nat.le_refl 30)] at passes
    cases passes
  · intro small
    have passes : tooFew (history added) index 0 = false := by
      rw [← Bool.not_eq_true, tooFew_history_iff enough]
      omega
    have older := getElem?_history (show index < 30 by omega) (show index < added.length by omega)
    have newest := getElem?_history (show 0 < 30 by omega) (show 0 < added.length by omega)
    rw [Nat.sub_zero, ← List.getLast?_eq_getElem?] at newest
    obtain ⟨first, firstEq⟩ : ∃ first, added[added.length - 1 - index]? = some first :=
      ⟨_, List.getElem?_eq_getElem (by omega)⟩
    obtain ⟨second, secondEq⟩ : ∃ second, added.getLast? = some second :=
      ⟨_, List.getLast?_eq_getLast_of_ne_nil (List.ne_nil_of_length_pos (by omega))⟩
    refine ⟨passes, first, second, ?_, firstEq, secondEq⟩
    simp only [getAggregators, passes, older, newest, firstEq, secondEq]
    rw [if_neg (by omega)]
    simp

/-- `/persecond/3` -/
theorem getAggregators_three :
    ∃ older newest, getAggregators (history [10, 20, 30, 40, 50]) 3 0 = .pair older newest ∧
      [10, 20, 30, 40, 50][1]? = some older ∧ [10, 20, 30, 40, 50].getLast? = some newest :=
  ((getAggregators_iff (show persecond (ascii "/3") = .samples 3 by decide) [10, 20, 30, 40, 50]
    (by decide)).mpr (by decide)).2

/-- `/persecond/30` is accepted and its call sleeps whatever is added. -/
theorem getAggregators_thirty :
    persecond (ascii "/30") = .samples 30 ∧
      30 + 1 ≤ (List.range 40).length ∧
      getAggregators (history (List.range 40)) 30 0 = .sleeps := by
  refine ⟨by decide, by decide, ?_⟩
  have waits : tooFew (history (List.range 40)) 30 0 = true :=
    (tooFew_history_iff (by decide)).mpr (Nat.le_refl 30)
  simp [getAggregators, waits]

end SampleHistory

end Pcm
