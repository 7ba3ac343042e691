import Pcm.PerfHandles

/-!
# What is read of the perf files

`programCoreCounters` opens the events of a core in two groups, and `readPerfData` puts the counts of a group one
behind the other, in the order in which they were opened; reading a group gives all of its counts or nothing.
-/

namespace Pcm.Perf

open PerfEvents Transition

variable {inst : PerfInstance} {s t : State} {i : Nat}

/-! ## Workers and their plans -/

/-- How far the workers of the current call have come with their plans. -/
structure Planned (inst : PerfInstance) (s : State) : Prop where
  idle : s.call = none → Closed s
  tasks : ∀ call, s.call = some call → s.perfEventTaskHandle.length = call.tids.length
  used : ∀ call, s.call = some call → s.core.coreGenCounterNumUsed ≤ 8
  begun : ∀ call, s.call = some call → ∀ i, ∃ rest,
    ((s.workers i).opened.map fun e => Action.perfEventOpen e.1) ++ rest = plan inst call s.core i ∧
      ((s.workers i).failed = false → rest = (s.workers i).todo)
  positions : ∀ call, s.call = some call → ∀ i, (s.workers i).failed = false →
    ∀ e ∈ (s.workers i).opened, ∀ readPos, e.1.readPos = some readPos → s.perfTopDownPos e.1.pos = readPos

theorem Closed.planned (closed : Closed s) : Planned inst s where
  idle := fun _ => closed
  tasks := fun call here => by rw [closed.call] at here; cases here
  used := fun call here => by rw [closed.call] at here; cases here
  begun := fun call here => by rw [closed.call] at here; cases here
  positions := fun call here => by rw [closed.call] at here; cases here

/-- A call for a process has a table of handles for each task. -/
theorem Planned.tables (planned : Planned inst s) {call : PerfCall} (here : s.call = some call)
    (process : call.tids ≠ []) : s.perfEventTaskHandle ≠ [] := by
  intro none_
  have length := planned.tasks call here
  rw [none_, List.length_nil] at length
  exact process (List.eq_nil_of_length_eq_zero length.symm)

theorem Planned.withCore (planned : Planned inst s) {core : CoreState} (same : SameEvents s.core core) :
    Planned inst { s with core := core } where
  idle := fun none_ => (planned.idle none_).withCore core
  tasks := planned.tasks
  used := fun call here => by rw [same.coreGenCounterNumUsed]; exact planned.used call here
  begun := fun call here i => by rw [same.plan]; exact planned.begun call here i
  positions := planned.positions

theorem counterEvents_get {call : PerfCall} {core : CoreState} {info : CoreInfo} {k : Nat} {o : Opening}
    (found : (counterEvents inst call core i info)[k]? = some o) : o.pos = k ∧ o.readPos = none := by
  match k with
  | 0 => obtain rfl := Option.some.inj found; exact ⟨rfl, rfl⟩
  | 1 => obtain rfl := Option.some.inj found; exact ⟨rfl, rfl⟩
  | 2 => obtain rfl := Option.some.inj found; exact ⟨rfl, rfl⟩
  | k + 3 =>
      have general : ((List.range core.coreGenCounterNumUsed).map fun j =>
          ({ pos := PERF_GEN_EVENT_0_POS + j, attr := genericEvent inst call core i info j,
             leader := some 0 } : Opening))[k]? = some o := found
      rw [List.getElem?_map, Option.map_eq_some_iff] at general
      obtain ⟨j, listed, rfl⟩ := general
      obtain ⟨inside, listed⟩ := List.getElem?_eq_some_iff.mp listed
      rw [List.getElem_range] at listed
      refine ⟨?_, rfl⟩
      show 3 + j = k + 3
      omega

/-- The place of a top-down event in the data depends on its position only. -/
theorem readPos_unique {call : PerfCall} {core : CoreState} {i j : Nat} {x y : Opening}
    (first : x ∈ openings (plan inst call core i)) (second : y ∈ openings (plan inst call core j))
    (pos : x.pos = y.pos) {a b : Nat} (here : x.readPos = some a) (there : y.readPos = some b) : a = b := by
  have event : ∀ {i o r}, o ∈ openings (plan inst call core i) → o.readPos = some r →
      ∃ event ∈ inst.topDownEvents.zipIdx, o.pos = event.1 ∧
        r = 3 + core.coreGenCounterNumUsed + event.2 := by
    intro i o r member readPos
    have counter : ∀ {info o}, o ∈ counterEvents inst call core i info → o.readPos = none := by
      intro info o listed
      obtain ⟨k, found⟩ := List.mem_iff_getElem?.mp listed
      exact (counterEvents_get found).2
    rcases openings_plan inst call core i with none_ | ⟨-, info, -, -, own⟩
    · rw [none_] at member
      cases member
    · rw [own, openings_coreActions] at member
      split at member
      · rcases List.mem_append.mp member with listed | topDown
        · rw [counter listed] at readPos
          cases readPos
        · split at topDown
          · obtain ⟨event, there, pos, -, -, read⟩ := mem_readableTopDown core topDown
            rw [read, Option.some.injEq] at readPos
            exact ⟨event, there, pos, readPos.symm⟩
          · cases topDown
      · obtain ⟨event, listed, inside⟩ := List.mem_flatMap.mp member
        obtain ⟨tid, -, rfl⟩ := List.mem_map.mp inside
        have none_ : event.readPos = some r := readPos
        rw [counter listed] at none_
        cases none_
  obtain ⟨e, listed, own, rfl⟩ := event first here
  obtain ⟨f, listed', own', rfl⟩ := event second there
  have distinct : (inst.topDownEvents.zipIdx.map Prod.fst).Nodup := by
    rw [List.zipIdx_map_fst, PerfInstance.topDownEvents]
    cases inst.hwTMAL2Supported <;> decide
  have same : e = f := List.inj_on_of_nodup_map distinct listed listed' (own.symm.trans (pos.trans own'))
  rw [same]

theorem openings_map_open (l : List (Opening × Nat)) :
    openings (l.map fun e => Action.perfEventOpen e.1) = l.map Prod.fst := by
  rw [openings, List.filterMap_map, ← List.filterMap_eq_map]
  rfl

/-- What a worker has opened is in its plan. -/
theorem Planned.mem_plan (planned : Planned inst s) {call : PerfCall} (here : s.call = some call)
    {e : Opening × Nat} (opened : e ∈ (s.workers i).opened) : e.1 ∈ openings (plan inst call s.core i) := by
  obtain ⟨rest, whole, -⟩ := planned.begun call here i
  rw [← whole, openings_append, openings_map_open]
  exact List.mem_append_left _ (List.mem_map_of_mem opened)

/-- An opening keeps the plans. -/
theorem Planned.next (planned : Planned inst s) {o : Opening} {rest : List Action} (answer : Option Nat)
    (working : (s.workers i).failed = false) (next : (s.workers i).todo = .perfEventOpen o :: rest) :
    Planned inst (s.perfEventOpen i o rest answer) := by
  obtain ⟨core, call, -, -, tasks⟩ := perfEventOpen_fields i o rest answer s
  have length : (s.perfEventOpen i o rest answer).perfEventTaskHandle.length =
      s.perfEventTaskHandle.length := by rw [tasks, setHandle_tasks]
  have there : ∀ j, j ≠ i → (s.perfEventOpen i o rest answer).workers j = s.workers j := by
    intro j other
    cases answer with
    | none => rw [(perfEventOpen_none i o rest s).2, Function.update_of_ne other]
    | some fd => rw [(perfEventOpen_some i o rest fd s).2, Function.update_of_ne other]
  refine ⟨fun none_ => ?_, fun c here => ?_, fun c here => ?_, fun c here j => ?_, fun c here j => ?_⟩
  · rw [call] at none_
    rw [(planned.idle none_).workers i] at next
    cases next
  · rw [call] at here
    rw [length]
    exact planned.tasks c here
  · rw [call] at here
    rw [core]
    exact planned.used c here
  · rw [call] at here
    rw [core]
    by_cases same : j = i
    · subst same
      obtain ⟨before, whole, left⟩ := planned.begun c here j
      rw [left working, next] at whole
      cases answer with
      | none =>
          rw [(perfEventOpen_none j o rest s).2, Function.update_self]
          exact ⟨_, whole, fun going => by cases going⟩
      | some fd =>
          rw [(perfEventOpen_some j o rest fd s).2, Function.update_self]
          refine ⟨rest, ?_, fun _ => rfl⟩
          rw [List.map_append, List.append_assoc]
          exact whole
    · rw [there j same]
      exact planned.begun c here j
  · rw [call] at here
    intro going e opened readPos read
    -- the new opening is in the plan, so it has the same place in the data as one at its position
    have new : o ∈ openings (plan inst c s.core i) := by
      obtain ⟨before, whole, left⟩ := planned.begun c here i
      rw [← whole, left working, next, openings_append]
      exact List.mem_append_right _ List.mem_cons_self
    have old : e ∈ (s.workers j).opened → (s.workers j).failed = false →
        (s.perfEventOpen i o rest answer).perfTopDownPos e.1.pos = readPos := by
      intro earlier running
      have before := planned.positions c here j running e earlier readPos read
      rcases perfTopDownPos_perfEventOpen i o rest answer s e.1.pos with same | ⟨pos, place⟩
      · rw [same, before]
      · exact readPos_unique new (planned.mem_plan here earlier) pos.symm place read
    by_cases same : j = i
    · subst same
      cases answer with
      | none =>
          rw [(perfEventOpen_none j o rest s).2, Function.update_self] at going
          cases going
      | some fd =>
          rw [(perfEventOpen_some j o rest fd s).2, Function.update_self] at going opened
          rcases List.mem_append.mp opened with earlier | last
          · exact old earlier working
          · rw [List.mem_singleton.mp last] at read ⊢
            have positive : fd ≠ 0 := by simpa using going
            have place : o.readPos = some readPos := read
            simp [State.perfEventOpen, positive, place]
    · rw [there j same] at opened going
      exact old opened going

theorem Planned.step (small : inst.coreGenCounterNumMax ≤ 8) (inv : Inv inst s) (planned : Planned inst s)
    (step : Step inst s t) : Planned inst t := by
  cases step with
  | @program call idle =>
      rcases program_cases s call with same | ⟨core, same⟩ | ⟨core, usable, used, same⟩
      · rw [same]
        exact planned.withCore (sameEvents_disableNMIWatchdog s.core)
      · rw [same]
        exact (inv.closed.withCore core).planned
      · rw [same]
        refine ⟨fun none_ => ?_, fun c here => ?_, fun c here => used.trans small, fun c here i => ?_,
          fun c here i _ e opened => ?_⟩
        · cases none_
        · obtain rfl := Option.some.inj here
          exact List.length_replicate
        · obtain rfl := Option.some.inj here
          exact ⟨_, rfl, fun _ => rfl⟩
        · cases opened
  | @«open» i o rest answer running working next fresh => exact planned.next answer working next
  | @token i rest running working next =>
      have there : ∀ j, j ≠ i → Function.update s.workers i { s.workers i with failed := true } j =
          s.workers j := fun j other => Function.update_of_ne other _ _
      refine ⟨fun none_ => ?_, planned.tasks, planned.used, fun c here j => ?_, fun c here j => ?_⟩
      · rw [(planned.idle none_).workers i] at next
        cases next
      · by_cases same : j = i
        · subst same
          obtain ⟨left, whole, -⟩ := planned.begun c here j
          simp only [Function.update_self]
          exact ⟨left, whole, fun going => by cases going⟩
        · simp only [there j same]
          exact planned.begun c here j
      · by_cases same : j = i
        · subst same
          simp only [Function.update_self]
          exact fun going => by cases going
        · simp only [there j same]
          exact planned.positions c here j
  | @finish call running here done =>
      have kept := planned.withCore (sameEvents_programCores inst
        { call.toCall with perfOpens := fun i => !(s.workers i).failed } s.core)
      refine ⟨fun none_ => ?_, kept.tasks, kept.used, kept.begun, kept.positions⟩
      have none_ : s.call = none := none_
      rw [here] at none_
      cases none_
  | cleanup idle => exact (inv.closed.withCore _).planned

theorem planned_reachable (small : inst.coreGenCounterNumMax ≤ 8) {core : CoreState}
    (reached : Reachable (Step inst) (start core) s) : Inv inst s ∧ Planned inst s := by
  have closed : Closed (start core) := ⟨rfl, fun _ _ => rfl, rfl, rfl, fun _ => rfl⟩
  apply reached.invariant (P := fun s => Inv inst s ∧ Planned inst s) ⟨closed.inv, closed.planned⟩
  rintro s t ⟨inv, planned⟩ step
  exact ⟨inv.step small step, planned.step small inv step⟩

/-! ## The groups of a core -/

/-- The members of a group are the openings at its position or with its leader, in the order in which they were
opened. -/
theorem Inv.group_eq (inv : Inv inst s) {p fd : Nat} (here : s.perfEventHandle i p = some fd) :
    group s.files fd = ((s.workers i).opened.filter fun e =>
      (e.1.task = none ∧ e.1.pos = p) ∨ e.1.leader = some p).map (fileOf s i) := by
  have slot : s.handle (none, i, p) = some fd := here
  have leads : ∀ {j q : Nat}, s.perfEventHandle j q = some fd → j = i ∧ q = p := by
    intro j q there
    have same := inv.slot_injective (a := (none, j, q)) there slot
    simp only [Prod.mk.injEq, true_and] at same
    exact same
  have own : ∀ {j : Nat} {e : Opening × Nat}, e ∈ (s.workers j).opened →
      (((fileOf s j e).fd = fd ∨ (fileOf s j e).leader = some fd) ↔
        j = i ∧ ((e.1.task = none ∧ e.1.pos = p) ∨ e.1.leader = some p)) := by
    intro j e opened
    constructor
    · rintro (file | leader)
      · have place := (inv.handle (e.1.slot j) fd).mpr ⟨e, opened, rfl, file⟩
        have same := inv.slot_injective place slot
        simp only [Opening.slot, Prod.mk.injEq] at same
        exact ⟨same.2.1, .inl ⟨same.1, same.2.2⟩⟩
      · obtain ⟨q, leader, there⟩ := Option.bind_eq_some_iff.mp leader
        obtain ⟨rfl, rfl⟩ := leads there
        exact ⟨rfl, .inr leader⟩
    · rintro ⟨rfl, ⟨task, pos⟩ | leader⟩
      · have place := (inv.handle (e.1.slot j) e.2).mpr ⟨e, opened, rfl, rfl⟩
        simp only [Opening.slot, task, pos] at place
        rw [slot, Option.some.injEq] at place
        exact .inl place.symm
      · refine .inr ?_
        show e.1.leader.bind (s.perfEventHandle j) = some fd
        rw [leader]
        exact here
  have local_ : group s.files fd = (s.files.filter (·.cpu = i)).filter
      fun f => f.fd = fd ∨ f.leader = some fd := by
    rw [group, List.filter_filter]
    apply List.filter_congr
    intro f member
    obtain ⟨e, opened, same⟩ := inv.mem_files member
    by_cases inside : f.fd = fd ∨ f.leader = some fd
    · have cpu : f.cpu = i := by
        rw [same] at inside
        exact ((own opened).mp inside).1
      simp [inside, cpu]
    · simp [inside]
  rw [local_, inv.files, List.filter_map]
  congr 1
  apply List.filter_congr
  intro e opened
  simp only [Function.comp_apply, decide_eq_decide]
  rw [own opened]
  exact ⟨fun both => both.2, fun inside => ⟨rfl, inside⟩⟩

/-- The first group of a core is the beginning of what its worker has opened. -/
theorem Planned.groups (planned : Planned inst s) {call : PerfCall} (here : s.call = some call)
    (system : call.tids = []) (i : Nat) :
    (∀ e ∈ (s.workers i).opened.take (3 + s.core.coreGenCounterNumUsed),
      e.1.task = none ∧ e.1.pos < 11 ∧ (e.1.pos = 0 ∨ e.1.leader = some 0) ∧ e.1.leader ≠ some 11) ∧
    (∀ e ∈ (s.workers i).opened.drop (3 + s.core.coreGenCounterNumUsed),
      e.1.task = none ∧ 11 ≤ e.1.pos ∧ (e.1.pos = 11 ∨ e.1.leader = some 11) ∧ e.1.leader ≠ some 0) := by
  obtain ⟨rest, whole, -⟩ := planned.begun call here i
  have small := planned.used call here
  have list := congrArg openings whole
  rw [openings_append, openings_map_open] at list
  rcases openings_plan inst call s.core i with none_ | ⟨-, info, -, -, own⟩
  · rw [none_] at list
    have empty : (s.workers i).opened = [] := by
      have nothing := (List.append_eq_nil_iff.mp list).1
      exact List.map_eq_nil_iff.mp nothing
    simp [empty]
  · rw [own, openings_coreActions, if_pos system] at list
    have length : (counterEvents inst call s.core i info).length = 3 + s.core.coreGenCounterNumUsed :=
      length_counterEvents call s.core info
    have front : ∀ e ∈ (s.workers i).opened.take (3 + s.core.coreGenCounterNumUsed),
        e.1 ∈ counterEvents inst call s.core i info := by
      intro e member
      have listed : e.1 ∈ ((s.workers i).opened.map Prod.fst ++ openings rest).take
          (3 + s.core.coreGenCounterNumUsed) := by
        rw [List.take_append, ← List.map_take]
        exact List.mem_append_left _ (List.mem_map_of_mem member)
      rw [list, ← length, List.take_left] at listed
      exact listed
    have back : ∀ e ∈ (s.workers i).opened.drop (3 + s.core.coreGenCounterNumUsed),
        e.1 ∈ readableTopDown inst s.core := by
      intro e member
      have listed : e.1 ∈ ((s.workers i).opened.map Prod.fst ++ openings rest).drop
          (3 + s.core.coreGenCounterNumUsed) := by
        rw [List.drop_append, ← List.map_drop]
        exact List.mem_append_left _ (List.mem_map_of_mem member)
      rw [list, ← length, List.drop_left] at listed
      split at listed
      · exact listed
      · cases listed
    constructor
    · intro e member
      obtain ⟨task, high, leader⟩ := mem_counterEvents call s.core info (front e member)
      refine ⟨task, by omega, ?_, ?_⟩
      · rcases leader with ⟨first, -⟩ | ⟨-, leader⟩
        · exact .inl first
        · exact .inr leader
      · rcases leader with ⟨-, leader⟩ | ⟨-, leader⟩
        · rw [leader]; exact fun same => by cases same
        · rw [leader]; exact fun same => by cases same
    · intro e member
      obtain ⟨event, listed, pos, task, leader, -⟩ := mem_readableTopDown s.core (back e member)
      obtain ⟨low, -, -⟩ := mem_topDownEvents listed
      have first : ∀ event ∈ inst.topDownEvents.zipIdx, event.2 = 0 → event.1 = 11 := by
        rw [PerfInstance.topDownEvents]
        cases inst.hwTMAL2Supported <;> decide
      refine ⟨task, by omega, ?_, ?_⟩
      · by_cases zero : event.2 = 0
        · exact .inl (pos.trans (first event listed zero))
        · rw [if_neg zero] at leader
          exact .inr leader
      · rw [leader]
        split
        · exact fun same => by cases same
        · exact fun same => by cases same

/-! ## Reading one group -/

/-- The counts of a group replace what is there if there are as many as expected. -/
theorem readPerfDataHelper_values {kernel : Kernel} {p num fd : Nat} {counts : List (BitVec 64)}
    (here : s.perfEventHandle i p = some fd)
    (read : kernel.read fd (1 + num) = some (BitVec.ofNat 64 counts.length :: counts)) (size : Nat) :
    State.readPerfDataHelper kernel s i p num (List.replicate size 0) =
      if counts.length = num then counts ++ List.replicate (size - counts.length) 0
      else List.replicate size 0 := by
  simp only [State.readPerfDataHelper, here, read, List.length_cons]
  by_cases whole : counts.length = num
  · subst whole
    have number : ¬ counts.length + 1 ≠ 1 + counts.length := by omega
    rw [if_neg number, if_neg (by simp), if_pos rfl]
    simp [State.overwrite]
  · have number : counts.length + 1 ≠ 1 + num := by omega
    rw [if_pos number, if_neg whole]

section Group

variable {kernel : Kernel} {p : Nat} {sel : List (Opening × Nat)} (inv : Inv inst s)
  (members : ((s.workers i).opened.filter fun e =>
    (e.1.task = none ∧ e.1.pos = p) ∨ e.1.leader = some p) = sel)
  (leads : ∀ fd, s.perfEventHandle i p = some fd →
    ∃ f ∈ s.files, f.fd = fd ∧ f.attr.Grouped ∧ f.leader = none)

/-- The counts of the members with zeros behind them. -/
def padded (kernel : Kernel) (sel : List (Opening × Nat)) (size : Nat) : List (BitVec 64) :=
  sel.map (fun e => kernel.count e.2) ++ List.replicate (size - sel.length) 0

include inv members

theorem Inv.values_eq {fd : Nat} (here : s.perfEventHandle i p = some fd) :
    kernel.values s.files fd = BitVec.ofNat 64 sel.length :: sel.map fun e => kernel.count e.2 := by
  have group := inv.group_eq here
  rw [members] at group
  rw [Kernel.values, group, List.length_map, List.map_map]
  rfl

include leads

/-- Reading a group that is whole. -/
theorem Inv.readPerfDataHelper_whole (answers : kernel.Answers PerfEventAttr.Grouped s.files) (size : Nat) {fd : Nat}
    (here : s.perfEventHandle i p = some fd) :
    State.readPerfDataHelper kernel s i p sel.length (List.replicate size 0) = padded kernel sel size := by
  obtain ⟨f, member, rfl, grouped, first⟩ := leads fd here
  have values : kernel.values s.files f.fd = _ := inv.values_eq members here
  have enough : (kernel.values s.files f.fd).length ≤ 1 + sel.length := by
    rw [values, List.length_cons, List.length_map, Nat.add_comm]
  have read := answers.read_group member grouped first enough
  have number : (sel.map fun e => kernel.count e.2).length = sel.length := List.length_map ..
  rw [values, ← number] at read
  rw [← number, readPerfDataHelper_values here read size, if_pos rfl, number, padded]

/-- Reading a group gives all of its counts or nothing. -/
theorem Inv.readPerfDataHelper_cases (documented : kernel.Documented PerfEventAttr.Grouped s.files) (num size : Nat) :
    State.readPerfDataHelper kernel s i p num (List.replicate size 0) = List.replicate size 0 ∨
      sel.length = num ∧
        State.readPerfDataHelper kernel s i p num (List.replicate size 0) = padded kernel sel size := by
  cases here : s.perfEventHandle i p with
  | none =>
      left
      rw [State.readPerfDataHelper, here]
      simp
  | some fd =>
      obtain ⟨f, member, rfl, grouped, first⟩ := leads fd here
      cases read : kernel.read f.fd (1 + num) with
      | none => exact .inl (by simp [State.readPerfDataHelper, here, read])
      | some data =>
          have number : (sel.map fun e => kernel.count e.2).length = sel.length := List.length_map ..
          rw [documented.group f member grouped first _ data read, inv.values_eq members here, ← number] at read
          rw [readPerfDataHelper_values here read size, number, padded]
          by_cases whole : sel.length = num
          · exact .inr ⟨whole, if_pos whole⟩
          · exact .inl (if_neg whole)

end Group

/-! ## Reading a core -/

section System

variable (planned : Planned inst s) {call : PerfCall} (here : s.call = some call) (system : call.tids = [])

include planned here system

theorem Planned.first (i : Nat) :
    ((s.workers i).opened.filter fun e => (e.1.task = none ∧ e.1.pos = 0) ∨ e.1.leader = some 0) =
      (s.workers i).opened.take (3 + s.core.coreGenCounterNumUsed) := by
  obtain ⟨front, back⟩ := planned.groups here system i
  conv_lhs => rw [← List.take_append_drop (3 + s.core.coreGenCounterNumUsed) (s.workers i).opened]
  rw [List.filter_append, List.filter_eq_self.mpr, List.filter_eq_nil_iff.mpr, List.append_nil]
  · intro e member
    obtain ⟨-, low, -, other⟩ := back e member
    have apart : e.1.pos ≠ 0 := by omega
    simp [apart, other]
  · intro e member
    obtain ⟨task, -, own, -⟩ := front e member
    simp [task, own]

theorem Planned.second (i : Nat) :
    ((s.workers i).opened.filter fun e => (e.1.task = none ∧ e.1.pos = 11) ∨ e.1.leader = some 11) =
      (s.workers i).opened.drop (3 + s.core.coreGenCounterNumUsed) := by
  obtain ⟨front, back⟩ := planned.groups here system i
  conv_lhs => rw [← List.take_append_drop (3 + s.core.coreGenCounterNumUsed) (s.workers i).opened]
  rw [List.filter_append, List.filter_eq_nil_iff.mpr, List.filter_eq_self.mpr, List.nil_append]
  · intro e member
    obtain ⟨task, -, own, -⟩ := back e member
    simp [task, own]
  · intro e member
    obtain ⟨-, low, -, other⟩ := front e member
    have apart : e.1.pos ≠ 11 := by omega
    simp [apart, other]

/-- Reading a core, as the reads of its two groups. -/
theorem Planned.readPerfData_eq (kernel : Kernel) (i : Nat) :
    s.readPerfData inst kernel i =
      let used := 3 + s.core.coreGenCounterNumUsed
      let outData := State.readPerfDataHelper kernel s i 0 used (List.replicate PERF_MAX_COUNTERS 0)
      if inst.hwTMAL1Supported && inst.perfSupportsTopDown then
        State.overwrite outData used ((State.readPerfDataHelper kernel s i 11 inst.topDownEvents.length
          (List.replicate outData.length 0)).take inst.topDownEvents.length)
      else outData := by
  have tasks : s.perfEventTaskHandle = [] := by
    apply List.eq_nil_of_length_eq_zero
    rw [planned.tasks call here, system]
    rfl
  rw [State.readPerfData, tasks]
  rfl

end System

theorem length_padded {kernel : Kernel} {sel : List (Opening × Nat)} {size : Nat}
    (fits : sel.length ≤ size) : (padded kernel sel size).length = size := by
  rw [padded, List.length_append, List.length_map, List.length_replicate]
  omega

theorem getElem?_padded {kernel : Kernel} {sel : List (Opening × Nat)} {size k : Nat} {v : BitVec 64}
    (found : (padded kernel sel size)[k]? = some v) :
    v = 0 ∨ ∃ e, sel[k]? = some e ∧ v = kernel.count e.2 := by
  rw [padded, List.getElem?_append] at found
  split at found
  · rw [List.getElem?_map, Option.map_eq_some_iff] at found
    obtain ⟨e, listed, same⟩ := found
    exact .inr ⟨e, listed, same.symm⟩
  · exact .inl (List.eq_of_mem_replicate (List.mem_of_getElem? found))

theorem getElem?_overwrite {data values : List (BitVec 64)} {pos k : Nat} (fits : pos ≤ data.length) :
    (State.overwrite data pos values)[k]? =
      if k < pos then data[k]? else if k < pos + values.length then values[k - pos]? else data[k]? := by
  have front : (data.take pos).length = pos := by
    rw [List.length_take]
    omega
  rw [State.overwrite, List.append_assoc, List.getElem?_append, front]
  split
  · next before => rw [List.getElem?_take, if_pos before]
  · rw [List.getElem?_append]
    split
    · rw [if_pos (by omega)]
    · rw [if_neg (by omega), List.getElem?_drop]
      congr 1
      omega

theorem mem_overwrite {data values : List (BitVec 64)} {pos : Nat} {v : BitVec 64}
    (member : v ∈ State.overwrite data pos values) : v ∈ data ∨ v ∈ values := by
  rw [State.overwrite, List.mem_append, List.mem_append] at member
  rcases member with (before | inside) | behind
  · exact .inl (List.mem_of_mem_take before)
  · exact .inr inside
  · exact .inl (List.mem_of_mem_drop behind)

theorem Inv.length_readPerfDataHelper (inv : Inv inst s) {p num size : Nat} {kernel : Kernel}
    (leads : ∀ fd, s.perfEventHandle i p = some fd →
      ∃ f ∈ s.files, f.fd = fd ∧ f.attr.Grouped ∧ f.leader = none)
    (documented : kernel.Documented PerfEventAttr.Grouped s.files) (fits : num ≤ size) :
    (State.readPerfDataHelper kernel s i p num (List.replicate size 0)).length = size := by
  rcases inv.readPerfDataHelper_cases (p := p) rfl leads documented num size with nothing | ⟨whole, same⟩
  · rw [nothing, List.length_replicate]
  · rw [same, length_padded (by omega)]

end Pcm.Perf
