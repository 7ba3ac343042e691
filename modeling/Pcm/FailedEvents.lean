import Mathlib.Logic.Function.Basic
import Pcm.RegisterFields

/-!
# Failed events

Calls of `addEventFromDB` for several groups, in any order. A value for an MSR goes to the first event of
the group as soon as it is known, and stays there when a later field or modifier is rejected. The index of
the offcore events is one for all groups: it counts those stored since it was last reset.
-/

namespace Pcm.Raw.Database

open StdString

/-! ## The loops over an event -/

/-- A turn of the first or of the second loop. -/
inductive Action
  | register (r : Bytes × FieldDescription)
  | modifier (mod : Bytes)

namespace Prepared

variable (p : Prepared) (maps : EventMap) (eventStr : Bytes)

def act (b : Building) : Action → Except Stop Building
  | .register r => setRegister maps eventStr p.offcore p.state.offcoreEventIndex b r
  | .modifier mod => applyModifier p.decl b mod

def actions (mods : List Bytes) : List Action := p.decl.map .register ++ mods.map .modifier

def start : Building := { config := p.init, events := p.events }

/-- Which turns have a value for the MSR. -/
def goesToMSR : Action → Prop
  | .register r => choosesMSR maps eventStr r
  | .modifier mod => writesMSR mod

/-- A field or a modifier is rejected behind one that has a value for the MSR. -/
def RejectsBehindMSR (mods : List Bytes) : Prop :=
  ∃ before a after b stop, p.actions mods = before ++ a :: after ∧
    (∃ x ∈ before, goesToMSR maps eventStr x) ∧
    runAll (p.act maps eventStr) p.start before = (b, none) ∧
    p.act maps eventStr b a = .error stop ∧ stop ≠ .status .OK

end Prepared

section Loops

variable {α β : Type} {act : Building → α → Except Stop Building} {b b' : Building}

theorem runAll_append_done {l₁ : List α} (done : runAll act b l₁ = (b', none)) (l₂ : List α) :
    runAll act b (l₁ ++ l₂) = runAll act b' l₂ := by
  induction l₁ generalizing b with
  | nil =>
      cases done
      rfl
  | cons a rest ih =>
      rw [runAll] at done
      rw [List.cons_append, runAll]
      cases turn : act b a with
      | ok b₁ =>
          rw [turn] at done
          exact ih done
      | error stop =>
          rw [turn] at done
          cases done

theorem runAll_append_stop {l₁ : List α} {stop : Stop} (ended : runAll act b l₁ = (b', some stop))
    (l₂ : List α) : runAll act b (l₁ ++ l₂) = (b', some stop) := by
  induction l₁ generalizing b with
  | nil => cases ended
  | cons a rest ih =>
      rw [runAll] at ended
      rw [List.cons_append, runAll]
      cases turn : act b a with
      | ok b₁ =>
          rw [turn] at ended
          exact ih ended
      | error s =>
          rw [turn] at ended
          exact ended

theorem runAll_map (f : β → α) (l : List β) :
    runAll act b (l.map f) = runAll (fun b x => act b (f x)) b l := by
  induction l generalizing b with
  | nil => rfl
  | cons x rest ih =>
      simp only [List.map_cons, runAll]
      cases act b (f x) with
      | ok b₁ => exact ih
      | error stop => rfl

/-- A loop that ends early has done all turns before the one that is rejected. -/
theorem runAll_stop {l : List α} {stop : Stop} (ended : runAll act b l = (b', some stop)) :
    ∃ before a after, l = before ++ a :: after ∧ runAll act b before = (b', none) ∧
      act b' a = .error stop := by
  induction l generalizing b with
  | nil => cases ended
  | cons a rest ih =>
      rw [runAll] at ended
      cases turn : act b a with
      | error s =>
          rw [turn] at ended
          cases ended
          exact ⟨[], a, rest, rfl, rfl, turn⟩
      | ok b₁ =>
          rw [turn] at ended
          obtain ⟨before, x, after, whole, done, rejected⟩ := ih ended
          refine ⟨a :: before, x, after, by rw [whole, List.cons_append], ?_, rejected⟩
          rw [runAll, turn]
          exact done

end Loops

section Building

variable {p : Prepared} {env : Environment} {eventStr : Bytes} {mods : List Bytes} {b b' : Building}

/-- Both loops are one. -/
theorem build_eq : p.build env eventStr mods =
    runAll (p.act env.maps eventStr) p.start (p.actions mods) := by
  have registers : runAll (p.act env.maps eventStr) p.start (p.decl.map .register) =
      runAll (setRegister env.maps eventStr p.offcore p.state.offcoreEventIndex)
        { config := p.init, events := p.events } p.decl := runAll_map _ _
  have modifiers : ∀ b, runAll (p.act env.maps eventStr) b (mods.map .modifier) =
      runAll (applyModifier p.decl) b mods := fun b => runAll_map _ _
  rw [Prepared.build, Prepared.actions]
  cases first : runAll (setRegister env.maps eventStr p.offcore p.state.offcoreEventIndex)
      { config := p.init, events := p.events } p.decl with
  | mk b stop =>
      rw [first] at registers
      cases stop with
      | none => exact ((runAll_append_done registers _).trans (modifiers b)).symm
      | some stop => exact (runAll_append_stop registers _).symm

theorem act_events {a : Action} (done : p.act env.maps eventStr b a = .ok b') :
    b'.events = b.events ∨ Prepared.goesToMSR env.maps eventStr a := by
  cases a with
  | register r =>
      rcases setRegister_cases done with same | ⟨chooses, _⟩
      · exact .inl same
      · exact .inr chooses
  | modifier mod =>
      rcases applyModifier_cases done with same | ⟨writes, _⟩
      · exact .inl same
      · exact .inr writes

/-- The events are as they were when the call fails, unless it has gone to the MSR of the first one. -/
theorem build_events {stop : Stop} (ended : p.build env eventStr mods = (b, some stop))
    (failed : stop ≠ .status .OK)
    (clean : p.events ≠ [] → ¬ p.RejectsBehindMSR env.maps eventStr mods) : b.events = p.events := by
  by_cases first : p.events = []
  · have length := length_build eventStr env p mods
    rw [ended, first, List.length_nil] at length
    rw [first]
    exact List.length_eq_zero_iff.mp length
  · rw [build_eq] at ended
    obtain ⟨before, a, after, whole, done, rejected⟩ := runAll_stop ended
    have quiet : ∀ x ∈ before, ¬ Prepared.goesToMSR env.maps eventStr x := by
      intro x mem goes
      exact clean first ⟨before, a, after, b, stop, whole, ⟨x, mem, goes⟩, done, rejected, failed⟩
    have kept : (runAll (p.act env.maps eventStr) p.start before).1.events = p.start.events := by
      apply runAll_keeps
      intro x mem b₁ b₂ turn
      exact (act_events turn).resolve_right (quiet x mem)
    rw [done] at kept
    exact kept

theorem not_rejects_of_build (built : (p.build env eventStr mods).2 = none) :
    ¬ p.RejectsBehindMSR env.maps eventStr mods := by
  rintro ⟨before, a, after, b, stop, whole, _, done, rejected, _⟩
  rw [build_eq, whole, runAll_append_done done, runAll, rejected] at built
  cases built

end Building

/-! ## Calls for several groups -/

/-- The groups of the offcore events that have been stored, before the index was last reset and since. -/
structure OffcoreEvents where
  before : List Nat
  since : List Nat

namespace OffcoreEvents

variable (o : OffcoreEvents)

/-- How many are in a group. -/
def count (group : Nat) : Nat := (o.before ++ o.since).count group

def reset (now : Bool) : OffcoreEvents := if now then ⟨o.before ++ o.since, []⟩ else o

def store (group : Nat) (now : Bool) : OffcoreEvents :=
  if now then ⟨o.before, o.since ++ [group]⟩ else o

end OffcoreEvents

/-- All groups, with the static index and a record of what has been stored. -/
structure Groups where
  configs : Nat → RawPMUConfigs
  offcoreEventIndex : Nat
  offcoreEvents : OffcoreEvents

structure Call where
  group : Nat
  fullEventStr : Bytes

section Calls

variable (env : Environment) (s : State) (fullEventStr : Bytes)

/-- The event of the database that a text names, with the modifiers. -/
def eventOf : Option (Bytes × List Bytes) :=
  match split (trimSpaces fullEventStr) 58 with
  | [] => none
  | eventStr :: mods =>
      if eventStr ≠ ascii "MSR_EVENT" ∧ env.maps.isEvent eventStr = true then some (eventStr, mods) else none

/-- Whether a call resets the index. -/
def resets : Bool :=
  match eventOf env fullEventStr with
  | none => false
  | some (eventStr, _) =>
      match check env eventStr s with
      | .ok c => c.isFirst
      | .error _ => false

/-- Whether a call stores an offcore event. -/
def storesOffcore : Bool :=
  match eventOf env fullEventStr with
  | none => false
  | some (eventStr, mods) =>
      match prepare env eventStr s with
      | .ok p => p.offcore && (p.build env eventStr mods).2.isNone
      | .error _ => false

namespace Groups

variable (w : Groups)

/-- All groups are empty. -/
def start : Groups := ⟨fun _ => RawPMUConfigs.empty, 0, [], []⟩

/-- What a call for a group finds. -/
def stateFor (group : Nat) : State := ⟨w.configs group, w.offcoreEventIndex⟩

def call (c : Call) : Option (AddEventStatus × Groups) :=
  (addEventFromDB env (w.stateFor c.group) c.fullEventStr).map fun r =>
    (r.1,
      { configs := Function.update w.configs c.group r.2.configs
        offcoreEventIndex := r.2.offcoreEventIndex
        offcoreEvents :=
          (w.offcoreEvents.reset (resets env (w.stateFor c.group) c.fullEventStr)).store c.group
            (storesOffcore env (w.stateFor c.group) c.fullEventStr) })

/-- What holds of every call of a run, as long as the calls return. -/
def All (P : Groups → Call → Prop) (w : Groups) : List Call → Prop
  | [] => True
  | c :: rest => P w c ∧ ∀ status w', w.call env c = some (status, w') → All P w' rest

end Groups

end Calls

/-! ## What every call should keep, and when it does -/

/-- A failed call leaves all events alone, and the index for an offcore event is the number of those that
the group has. -/
structure Sound (env : Environment) (w : Groups) (c : Call) : Prop where
  failed : ∀ status w', w.call env c = some (status, w') → status ≠ .OK →
    ∀ group pmuName fixed, eventsOf (w'.configs group) pmuName fixed = eventsOf (w.configs group) pmuName fixed
  index : ∀ eventStr mods p, Reaches env (w.stateFor c.group) c.fullEventStr eventStr mods p →
    p.offcore = true → p.state.offcoreEventIndex = w.offcoreEvents.count c.group

/-- If the group has events already, nothing is rejected behind a value for the MSR. And for an offcore
event, all that have been stored since the index was last reset are in its group, and none of those stored
before. -/
structure Meets (env : Environment) (w : Groups) (c : Call) : Prop where
  clean : ∀ eventStr mods p, Reaches env (w.stateFor c.group) c.fullEventStr eventStr mods p →
    p.events ≠ [] → ¬ p.RejectsBehindMSR env.maps eventStr mods
  together : ∀ eventStr mods p, Reaches env (w.stateFor c.group) c.fullEventStr eventStr mods p →
    p.offcore = true →
      c.group ∉ (w.offcoreEvents.reset (resets env (w.stateFor c.group) c.fullEventStr)).before ∧
      ∀ group ∈ (w.offcoreEvents.reset (resets env (w.stateFor c.group) c.fullEventStr)).since,
        group = c.group

section Steps

variable {env : Environment} {s s' : State} {fullEventStr eventStr : Bytes} {mods : List Bytes}
  {p : Prepared} {status : AddEventStatus}

theorem eventOf_eq_some : eventOf env fullEventStr = some (eventStr, mods) ↔
    split (trimSpaces fullEventStr) 58 = eventStr :: mods ∧ eventStr ≠ ascii "MSR_EVENT" ∧
      env.maps.isEvent eventStr = true := by
  unfold eventOf
  cases split (trimSpaces fullEventStr) 58 with
  | nil => simp
  | cons e rest =>
      simp only [Option.ite_none_right_eq_some, Option.some_inj, Prod.mk.injEq, List.cons.injEq]
      constructor
      · rintro ⟨known, rfl, rfl⟩
        exact ⟨⟨rfl, rfl⟩, known⟩
      · rintro ⟨⟨rfl, rfl⟩, known⟩
        exact ⟨known, rfl, rfl⟩

theorem Reaches.eventOf (reaches : Reaches env s fullEventStr eventStr mods p) :
    eventOf env fullEventStr = some (eventStr, mods) :=
  eventOf_eq_some.mpr ⟨reaches.tokens, reaches.other, reaches.event⟩

theorem addMSREvent_state {mods : List Bytes} (returned : addMSREvent s fullEventStr mods = some (status, s')) :
    s'.offcoreEventIndex = s.offcoreEventIndex ∧ (status ≠ .OK → s' = s) := by
  unfold addMSREvent at returned
  split at returned
  · cases returned
    exact ⟨rfl, fun failed => absurd rfl failed⟩
  · cases returned
    exact ⟨rfl, fun _ => rfl⟩
  · cases returned
    exact ⟨rfl, fun _ => rfl⟩
  · cases returned

/-- A call for no event of the database. -/
theorem addEventFromDB_other (other : eventOf env fullEventStr = none)
    (returned : addEventFromDB env s fullEventStr = some (status, s')) :
    s'.offcoreEventIndex = s.offcoreEventIndex ∧ (status ≠ .OK → s' = s) := by
  unfold addEventFromDB at returned
  dsimp only at returned
  split at returned
  · cases returned
    exact ⟨rfl, fun _ => rfl⟩
  · rename_i tokens
    split at returned
    · exact addMSREvent_state returned
    · rename_i noMSR
      split at returned
      · rename_i known
        rw [eventOf_eq_some.mpr ⟨tokens, noMSR, known⟩] at other
        cases other
      · cases returned
        exact ⟨rfl, fun _ => rfl⟩

theorem addEventFromDB_event (event : eventOf env fullEventStr = some (eventStr, mods)) :
    addEventFromDB env s fullEventStr = addRecord env eventStr s (trimSpaces fullEventStr) mods := by
  obtain ⟨tokens, other, known⟩ := eventOf_eq_some.mp event
  unfold addEventFromDB
  simp only [tokens, if_neg other, known, if_true]

theorem prepare_ok (prepared : prepare env eventStr s = .ok p) :
    ∃ c, check env eventStr s = .ok c ∧ p.toChecked = c.resetIndex := by
  unfold prepare at prepared
  cases checked : check env eventStr s with
  | error outcome =>
      rw [checked] at prepared
      cases prepared
  | ok c =>
      rw [checked] at prepared
      refine ⟨c, rfl, ?_⟩
      dsimp only at prepared
      unfold findDeclaration at prepared
      split at prepared
      · cases prepared
      · split at prepared
        · cases prepared
        · cases prepared
          rfl

theorem resetIndex_index {c : Checked} (checked : check env eventStr s = .ok c) :
    c.resetIndex.state.offcoreEventIndex = if c.isFirst then 0 else s.offcoreEventIndex := by
  have left : stateOf Checked.state (check env eventStr s) = some c.state := by
    rw [checked]
    rfl
  have kept := (stateOf_check left).2
  show (if c.isFirst then 0 else c.state.offcoreEventIndex) = _
  rw [kept]

theorem finish_index {built : Building × Option Stop}
    (returned : p.finish env eventStr fullEventStr built = some (status, s')) :
    s'.offcoreEventIndex =
      p.state.offcoreEventIndex + if (p.offcore && built.2.isNone) = true then 1 else 0 := by
  obtain ⟨b, stop⟩ := built
  cases stop with
  | none =>
      cases returned
      simp
  | some stop =>
      have same : ∀ events, (p.store events).offcoreEventIndex = p.state.offcoreEventIndex := fun _ => rfl
      cases stop with
      | undefined => cases returned
      | status status =>
          cases returned
          simp [same]
      | exception =>
          simp only [Prepared.finish] at returned
          split at returned
          · cases returned
            simp [same]
          · cases returned

/-- What a call makes of the index. -/
theorem index_step (returned : addEventFromDB env s fullEventStr = some (status, s')) :
    s'.offcoreEventIndex = (if resets env s fullEventStr then 0 else s.offcoreEventIndex) +
      if storesOffcore env s fullEventStr then 1 else 0 := by
  cases event : eventOf env fullEventStr with
  | none =>
      rw [(addEventFromDB_other event returned).1]
      simp [resets, storesOffcore, event]
  | some named =>
      obtain ⟨eventStr, mods⟩ := named
      rw [addEventFromDB_event event] at returned
      unfold addRecord at returned
      simp only [resets, storesOffcore, event]
      cases checked : check env eventStr s with
      | error outcome =>
          have ended : prepare env eventStr s = .error outcome := by rw [prepare, checked]
          rw [ended] at returned ⊢
          have left : stateOf Checked.state (check env eventStr s) = some s' := by
            rw [checked]
            exact congrArg (Option.map Prod.snd) returned
          simp [(stateOf_check left).2]
      | ok c =>
          dsimp only
          rw [← resetIndex_index checked]
          cases prepared : prepare env eventStr s with
          | error outcome =>
              have ended : findDeclaration env eventStr c.resetIndex = .error outcome := by
                rw [← prepared, prepare, checked]
              rw [prepared] at returned
              have kept : s' = c.resetIndex.state := stateOf_findDeclaration
                (by rw [ended]; exact congrArg (Option.map Prod.snd) returned)
              simp [kept]
          | ok p =>
              rw [prepared] at returned
              obtain ⟨c', checked', same⟩ := prepare_ok prepared
              rw [checked] at checked'
              cases checked'
              rw [← same]
              exact finish_index returned

theorem eventsOf_store_self (pmuName : Bytes) (fixed : Bool) :
    eventsOf (p.store p.events).configs pmuName fixed = eventsOf p.state.configs pmuName fixed := by
  by_cases equal : text pmuName = text p.pmuName
  · rw [eventsOf, eventsOf, Prepared.store, equal, get_modify_self, Prepared.events, eventsOf, setEvents]
    cases p.fixed.isSome with
    | true => rfl
    | false => rfl
  · rw [eventsOf, eventsOf, Prepared.store, get_modify_ne _ equal]

/-- What a failed call leaves. -/
theorem failed_step (returned : addEventFromDB env s fullEventStr = some (status, s')) (failed : status ≠ .OK)
    (clean : ∀ eventStr mods p, Reaches env s fullEventStr eventStr mods p → p.events ≠ [] →
      ¬ p.RejectsBehindMSR env.maps eventStr mods) (pmuName : Bytes) (fixed : Bool) :
    eventsOf s'.configs pmuName fixed = eventsOf s.configs pmuName fixed := by
  cases event : eventOf env fullEventStr with
  | none => rw [(addEventFromDB_other event returned).2 failed]
  | some named =>
      obtain ⟨eventStr, mods⟩ := named
      obtain ⟨tokens, other, known⟩ := eventOf_eq_some.mp event
      rw [addEventFromDB_event event] at returned
      unfold addRecord at returned
      cases prepared : prepare env eventStr s with
      | error outcome =>
          rw [prepared] at returned
          exact eventsOf_prepare
            (by rw [prepared]; exact congrArg (Option.map Prod.snd) returned) pmuName fixed
      | ok p =>
          rw [prepared] at returned
          have reaches : Reaches env s fullEventStr eventStr mods p := ⟨tokens, other, known, prepared⟩
          have first := eventsOf_prepare (by rw [prepared]; rfl) pmuName fixed
          have unchanged : ∀ b stop, p.build env eventStr mods = (b, some stop) → stop ≠ .status .OK →
              eventsOf (p.store b.events).configs pmuName fixed = eventsOf s.configs pmuName fixed := by
            intro b stop ended failed
            rw [build_events ended failed (clean eventStr mods p reaches), eventsOf_store_self, first]
          cases built : p.build env eventStr mods with
          | mk b stop =>
              dsimp only at returned
              rw [built] at returned
              cases stop with
              | none =>
                  cases returned
                  exact absurd rfl failed
              | some stop =>
                  cases stop with
                  | undefined => cases returned
                  | status status =>
                      cases returned
                      exact unchanged b _ built (fun same => failed (by cases same; rfl))
                  | exception =>
                      simp only [Prepared.finish] at returned
                      split at returned
                      · cases returned
                        exact unchanged b _ built (fun same => by cases same)
                      · cases returned

theorem index_prepared (prepared : prepare env eventStr s = .ok p)
    (event : eventOf env fullEventStr = some (eventStr, mods)) :
    p.state.offcoreEventIndex = if resets env s fullEventStr then 0 else s.offcoreEventIndex := by
  obtain ⟨c, checked, same⟩ := prepare_ok prepared
  rw [same, resetIndex_index checked]
  simp only [resets, event, checked]

end Steps

/-! ## Runs -/

namespace Groups

variable {env : Environment} {w w' : Groups} {c : Call} {status : AddEventStatus}

/-- The index counts the offcore events since it was last reset. -/
def Counted (w : Groups) : Prop := w.offcoreEventIndex = w.offcoreEvents.since.length

theorem counted_reset (counted : w.Counted) (now : Bool) :
    (if now then 0 else w.offcoreEventIndex) = (w.offcoreEvents.reset now).since.length := by
  cases now with
  | true => rfl
  | false => exact counted

theorem counted_call (counted : w.Counted) (called : w.call env c = some (status, w')) : w'.Counted := by
  obtain ⟨⟨status, s'⟩, returned, same⟩ := Option.map_eq_some_iff.mp called
  cases same
  unfold Counted
  dsimp only
  rw [index_step returned]
  show (if resets env (w.stateFor c.group) c.fullEventStr then 0 else w.offcoreEventIndex) + _ = _
  rw [counted_reset counted, OffcoreEvents.store]
  split
  · simp
  · simp

theorem count_reset (o : OffcoreEvents) (now : Bool) (group : Nat) :
    (o.reset now).count group = o.count group := by
  cases now with
  | true => simp [OffcoreEvents.reset, OffcoreEvents.count]
  | false => rfl

/-- Where all events since the reset are in one group, and none before, they are those of the group. -/
theorem count_together {o : OffcoreEvents} {group : Nat} (fresh : group ∉ o.before)
    (own : ∀ g ∈ o.since, g = group) : o.count group = o.since.length := by
  rw [OffcoreEvents.count, List.count_append, List.count_eq_zero_of_not_mem fresh, Nat.zero_add]
  exact List.count_eq_length.mpr fun g mem => (own g mem).symm

theorem sound_of_meets (counted : w.Counted) (meets : Meets env w c) : Sound env w c where
  failed := by
    intro status w' called failed group pmuName fixed
    obtain ⟨⟨status, s'⟩, returned, same⟩ := Option.map_eq_some_iff.mp called
    cases same
    dsimp only at failed ⊢
    by_cases own : group = c.group
    · subst own
      rw [Function.update_self]
      exact failed_step returned failed meets.clean pmuName fixed
    · rw [Function.update_of_ne own]
  index := by
    intro eventStr mods p reaches offcore
    obtain ⟨fresh, own⟩ := meets.together eventStr mods p reaches offcore
    rw [index_prepared reaches.prepared reaches.eventOf, ← count_reset _ _ c.group, count_together fresh own]
    exact counted_reset counted _

theorem all_sound (counted : w.Counted) {calls : List Call} (meets : w.All env (Meets env) calls) :
    w.All env (Sound env) calls := by
  induction calls generalizing w with
  | nil => trivial
  | cons c rest ih =>
      obtain ⟨head, tail⟩ := meets
      refine ⟨sound_of_meets counted head, ?_⟩
      intro status w' called
      exact ih (counted_call counted called) (tail status w' called)

/-- In a run from empty groups whose calls all meet the condition, all are sound. -/
theorem sound_run {calls : List Call} (meets : start.All env (Meets env) calls) :
    start.All env (Sound env) calls := by
  have counted : start.Counted := rfl
  exact all_sound counted meets

/-- An offcore event `O` and another event `E`, and two of the MSRs. -/
def offcoreAndOther : Environment where
  setup :=
    { getMaxCustomCoreEvents := 4, records := [], addEventFromDB := fun configs _ => (.Failed, configs) }
  maps :=
    { json :=
        [(ascii "O", [(ascii "Counter", some (ascii "0,1,2,3")), (ascii "EventCode", some (ascii "0xB7,0xBB")),
          (ascii "Offcore", some (ascii "1")), (ascii "MSRIndex", some (ascii "0x1a6,0x1a7")),
          (ascii "MSRValue", some (ascii "0x10001"))]),
        (ascii "E", [(ascii "Counter", some (ascii "0,1,2,3")), (ascii "EventCode", some (ascii "0x3c")),
          (ascii "MSRIndex", some (ascii "0x00")), (ascii "MSRValue", some (ascii "0x00"))])]
      tsv := [] }
  declarations := [(ascii "core", [(ascii "programmable",
    [(ascii "EventCode", { Config := some 0, Position := some 0, Width := some 8 }),
      (ascii "MSRIndex", { members := [
        (ascii "0x1a6", { Config := some 1, Position := some 0, Width := some 64 }),
        (ascii "0x1a7", { Config := some 2, Position := some 0, Width := some 64 })] })])])]

/-- What decides the condition when all loops come to their end. -/
def facts (env : Environment) (w : Groups) (group : Nat) (fullEventStr eventStr : Bytes) (mods : List Bytes) :
    Option (Option Stop) × List Nat × List Nat :=
  let o := w.offcoreEvents.reset (resets env (w.stateFor group) fullEventStr)
  ((prepare env eventStr (w.stateFor group)).toOption.map fun p => (p.build env eventStr mods).2, o.before, o.since)

theorem meets_of_facts {eventStr : Bytes} {mods : List Bytes} {since : List Nat}
    (event : eventOf env c.fullEventStr = some (eventStr, mods))
    (known : facts env w c.group c.fullEventStr eventStr mods = (some none, [], since))
    (own : ∀ g ∈ since, g = c.group) : Meets env w c := by
  simp only [facts, Prod.mk.injEq] at known
  obtain ⟨built, before, same⟩ := known
  constructor
  · intro eventStr' mods' p reaches _
    have named : (eventStr, mods) = (eventStr', mods') :=
      Option.some.inj (event.symm.trans reaches.eventOf)
    cases named
    rw [reaches.prepared] at built
    exact not_rejects_of_build (Option.some.inj built)
  · intro _ _ _ _ _
    rw [before, same]
    exact ⟨List.not_mem_nil, own⟩

/-- A call for an event that is not offcore meets the condition where no field and no modifier is for the MSR. -/
theorem meets_of_quiet {eventStr : Bytes} {mods : List Bytes}
    (event : eventOf env c.fullEventStr = some (eventStr, mods))
    (known : (prepare env eventStr (w.stateFor c.group)).toOption.map (·.offcore) = some false)
    (fields : ∀ r, ¬ choosesMSR env.maps eventStr r) (quiet : ∀ mod ∈ mods, ¬ writesMSR mod) : Meets env w c := by
  constructor
  · rintro eventStr' mods' p reaches _ ⟨before, a, after, b, stop, whole, ⟨x, inside, msr⟩, -⟩
    cases Option.some.inj (event.symm.trans reaches.eventOf)
    have listed : x ∈ p.actions mods := whole ▸ List.mem_append_left _ inside
    rcases List.mem_append.mp listed with register | modifier
    · obtain ⟨r, -, rfl⟩ := List.mem_map.mp register
      exact fields r msr
    · obtain ⟨mod, member, rfl⟩ := List.mem_map.mp modifier
      exact quiet mod member msr
  · intro eventStr' mods' p reaches offcore
    cases Option.some.inj (event.symm.trans reaches.eventOf)
    rw [reaches.prepared] at known
    have other : p.offcore = false := Option.some.inj known
    rw [other] at offcore
    cases offcore

/-- Between two offcore events another one fails, at an unsupported modifier. -/
theorem sound_run_offcore :
    start.All offcoreAndOther (Sound offcoreAndOther) [⟨0, ascii "O"⟩, ⟨0, ascii "E:bad"⟩, ⟨0, ascii "O"⟩] ∧
    ((start.call offcoreAndOther ⟨0, ascii "O"⟩).bind fun r =>
      (r.2.call offcoreAndOther ⟨0, ascii "E:bad"⟩).map Prod.fst) = some .Failed := by
  refine ⟨sound_run ?_, by decide +kernel⟩
  have event : eventOf offcoreAndOther (ascii "O") = some (ascii "O", []) := by decide +kernel
  have other : eventOf offcoreAndOther (ascii "E:bad") = some (ascii "E", [ascii "bad"]) := by decide +kernel
  have first : facts offcoreAndOther start 0 (ascii "O") (ascii "O") [] = (some none, [], []) := by
    decide +kernel
  refine ⟨meets_of_facts event first (by simp), ?_⟩
  intro status w₁ called
  have second : (start.call offcoreAndOther ⟨0, ascii "O"⟩).map (fun r =>
      (prepare offcoreAndOther (ascii "E") (r.2.stateFor 0)).toOption.map (·.offcore)) = some (some false) := by
    decide +kernel
  have third : ((start.call offcoreAndOther ⟨0, ascii "O"⟩).bind fun r =>
      (r.2.call offcoreAndOther ⟨0, ascii "E:bad"⟩).map fun r' =>
        facts offcoreAndOther r'.2 0 (ascii "O") (ascii "O") []) = some (some none, [], [0]) := by
    decide +kernel
  rw [called] at second third
  have zero : offcoreAndOther.maps.getField (ascii "E") (ascii "MSRIndex") = .ok (ascii "0x00") := by decide +kernel
  have single : split (ascii "bad") 61 = [ascii "bad"] := by decide +kernel
  refine ⟨meets_of_quiet other (Option.some.inj second) ?_ ?_, ?_⟩
  · rintro r ⟨-, str, found, chosen⟩
    rw [zero] at found
    cases found
    exact chosen (.inr (by decide))
  · rintro mod member ⟨value, pair⟩
    rw [List.mem_singleton.mp member, single] at pair
    cases pair
  · intro status' w₂ called'
    simp only [Option.bind_some, called', Option.map_some, Option.some_inj] at third
    refine ⟨meets_of_facts event third (by simp), ?_⟩
    intro _ _ _
    trivial

/-- A failed event changes the MSR values of the first one. And after the first event of another group the
index starts again, so that the second offcore event of a group has the MSR of the first one. -/
theorem offcore_not_sound :
    ¬ start.All offcoreAndOther (Sound offcoreAndOther) [⟨0, ascii "O"⟩, ⟨0, ascii "O:bad"⟩] ∧
    ¬ start.All offcoreAndOther (Sound offcoreAndOther)
      [⟨0, ascii "O"⟩, ⟨1, ascii "E"⟩, ⟨0, ascii "O"⟩] := by
  constructor
  · rintro ⟨_, next⟩
    have outcome : ((start.call offcoreAndOther ⟨0, ascii "O"⟩).bind fun r =>
        (r.2.call offcoreAndOther ⟨0, ascii "O:bad"⟩).map fun r' => (r'.1,
          decide (eventsOf (r'.2.configs 0) (ascii "core") false =
            eventsOf (r.2.configs 0) (ascii "core") false))) = some (.Failed, false) := by decide +kernel
    obtain ⟨⟨status, w₁⟩, first, outcome⟩ := Option.bind_eq_some_iff.mp outcome
    obtain ⟨⟨status', w₂⟩, second, outcome⟩ := Option.map_eq_some_iff.mp outcome
    simp only [Prod.mk.injEq, decide_eq_false_iff_not] at outcome
    obtain ⟨rfl, changed⟩ := outcome
    exact changed ((next status w₁ first).1.failed _ w₂ second (by decide) 0 (ascii "core") false)
  · rintro ⟨_, next⟩
    have outcome : ((start.call offcoreAndOther ⟨0, ascii "O"⟩).bind fun r =>
        (r.2.call offcoreAndOther ⟨1, ascii "E"⟩).map fun r' =>
          ((prepare offcoreAndOther (ascii "O") (r'.2.stateFor 0)).toOption.map fun p =>
            (p.offcore, p.state.offcoreEventIndex), r'.2.offcoreEvents.count 0)) =
        some (some (true, 0), 1) := by decide +kernel
    obtain ⟨⟨status, w₁⟩, first, outcome⟩ := Option.bind_eq_some_iff.mp outcome
    obtain ⟨⟨status', w₂⟩, second, outcome⟩ := Option.map_eq_some_iff.mp outcome
    simp only [Prod.mk.injEq] at outcome
    obtain ⟨third, count⟩ := outcome
    have sound := ((next status w₁ first).2 status' w₂ second).1
    cases prepared : prepare offcoreAndOther (ascii "O") (w₂.stateFor 0) with
    | error outcome =>
        rw [prepared] at third
        cases third
    | ok p =>
        rw [prepared] at third
        simp only [Except.toOption, Option.map_some, Option.some_inj, Prod.mk.injEq] at third
        obtain ⟨offcore, index⟩ := third
        have reaches : Reaches offcoreAndOther (w₂.stateFor 0) (ascii "O") (ascii "O") [] p :=
          ⟨by decide +kernel, by decide, rfl, prepared⟩
        have same := sound.index _ _ p reaches offcore
        rw [index, count] at same
        cases same

end Groups

end Pcm.Raw.Database
