import Pcm.PerfReadings

/-!
# What the places of the perf data show

For a process `readPerfData` adds up the counts of its tasks. Whatever has become of a call and of the reads, a place of
the data shows 0 or what files of its own event have counted, never the count of another event.
-/

namespace Pcm.Perf

open PerfEvents Transition

variable {inst : PerfInstance} {s t : State} {i : Nat}

/-! ## The events of what is opened -/

/-- The place of an event in the data. -/
def Opening.dataPos (o : Opening) : Nat := o.readPos.getD o.pos

/-- The tasks whose files count an event: −1 where everything on the core is counted. -/
def PerfCall.counted (call : PerfCall) : List Int := if call.tids = [] then [-1] else call.tids

/-- The attributes under which an event is opened. -/
def PerfCall.attr (call : PerfCall) (o : Opening) : PerfEventAttr :=
  if call.tids = [] then o.attr
  else { o.attr with inherit := true, excludeKernel := true, excludeHv := true, group := false }

section Events

variable {call : PerfCall} {core : CoreState} {info : CoreInfo} {o : Opening}

theorem mem_coreEvents :
    some o ∈ coreEvents inst call core i info ↔ o ∈ counterEvents inst call core i info ++
      if inst.usesTopDown call then readableTopDown inst core else [] := by
  have topDown : some o ∈ topDownOpenings inst core ↔ o ∈ readableTopDown inst core := by
    simp [readableTopDown]
  rw [coreEvents, List.mem_append, List.mem_append]
  split
  · simp [topDown]
  · simp

theorem mem_topDownOpenings (member : some o ∈ topDownOpenings inst core) :
    o.tid = -1 ∧ o.task = none ∧ o.attr.Grouped := by
  rw [topDownOpenings, List.mem_map] at member
  obtain ⟨event, -, same⟩ := member
  obtain ⟨fields, -, rfl⟩ := Option.map_eq_some_iff.mp same
  exact ⟨rfl, rfl, rfl⟩

/-- An event is opened for the whole core and in a group, and the first one of a group has no leader. -/
theorem coreEvents_spec (small : core.coreGenCounterNumUsed ≤ 8) (member : some o ∈ coreEvents inst call core i info) :
    o.tid = -1 ∧ o.task = none ∧ o.attr.Grouped ∧ (o.pos = 0 ∨ o.pos = 11 → o.leader = none) := by
  have topDown := mem_coreEvents.mp member
  rcases List.mem_append.mp member with counter | other
  · obtain ⟨x, listed, same⟩ := List.mem_map.mp counter
    obtain rfl := Option.some.inj same
    obtain ⟨task, high, leader⟩ := mem_counterEvents call core info listed
    have fixed : x.tid = -1 ∧ x.attr.Grouped := by
      simp only [counterEvents, List.mem_cons, List.mem_map] at listed
      rcases listed with rfl | rfl | rfl | ⟨j, -, rfl⟩ <;> exact ⟨rfl, rfl⟩
    refine ⟨fixed.1, task, fixed.2, fun first => ?_⟩
    rcases leader with ⟨-, none_⟩ | ⟨low, -⟩
    · exact none_
    · omega
  · split at other
    · obtain ⟨tid, task, grouped⟩ := mem_topDownOpenings other
      have readable : o ∈ readableTopDown inst core := List.mem_filterMap.mpr ⟨some o, other, rfl⟩
      obtain ⟨event, listed, pos, -, leader, -⟩ := mem_readableTopDown core readable
      obtain ⟨low, -, later⟩ := mem_topDownEvents listed
      refine ⟨tid, task, grouped, fun first => ?_⟩
      have zero : event.2 = 0 := by
        by_contra behind
        have apart := later behind
        omega
      rw [leader, if_pos zero]
    · cases other

/-- The events have their places in the data in the order in which they are programmed. -/
theorem coreEvents_get {k : Nat} (found : (coreEvents inst call core i info)[k]? = some (some o)) : o.dataPos = k := by
  rw [coreEvents, List.getElem?_append] at found
  split at found
  · rw [List.getElem?_map, Option.map_eq_some_iff] at found
    obtain ⟨x, counter, same⟩ := found
    obtain rfl := Option.some.inj same
    obtain ⟨pos, none_⟩ := counterEvents_get counter
    rw [Opening.dataPos, none_]
    exact pos
  · next behind =>
      rw [List.length_map, length_counterEvents] at behind found
      split at found
      · rw [topDownOpenings, List.getElem?_map, Option.map_eq_some_iff] at found
        obtain ⟨event, place, same⟩ := found
        rw [List.getElem?_zipIdx, Option.map_eq_some_iff] at place
        obtain ⟨pos, -, rfl⟩ := place
        obtain ⟨fields, -, rfl⟩ := Option.map_eq_some_iff.mp same
        rw [Opening.dataPos]
        simp only [Option.getD_some]
        omega
      · cases found

/-- In a call for the whole system each event is one action. -/
theorem coreActions_system (system : call.tids = []) :
    coreActions inst call core i info = (coreEvents inst call core i info).map fun o =>
      match o with
      | some o => .perfEventOpen o
      | none => .unknownToken := by
  rw [coreActions, List.map_eq_flatMap]
  congr 1
  funext o
  cases o with
  | none => rfl
  | some o => rw [eventActions, programPerfEvent, if_pos system]

end Events

/-- A file of the event that a place of a core is for. -/
def CountsFor (inst : PerfInstance) (s : State) (i k : Nat) (f : File PerfEventAttr) : Prop :=
  f ∈ s.files ∧ f.cpu = i ∧ ∃ call info o, s.call = some call ∧ inst.cores[i]? = some info ∧
    some o ∈ coreEvents inst call s.core i info ∧ o.dataPos = k ∧ f.attr = call.attr o ∧ f.tid ∈ call.counted

section Opened

variable (planned : Planned inst s) {call : PerfCall} (here : s.call = some call) {e : Opening × Nat}

include planned here

/-- What is open is an event of its core, or the copy of one for a task. -/
theorem Planned.mem_events (opened : e ∈ (s.workers i).opened) :
    ∃ info o, inst.cores[i]? = some info ∧ some o ∈ coreEvents inst call s.core i info ∧
      if call.tids = [] then e.1 = o else ∃ tid ∈ call.tids.zipIdx, e.1 = o.forTask tid := by
  have member := planned.mem_plan here opened
  rcases openings_plan inst call s.core i with none_ | ⟨-, info, core, -, own⟩
  · rw [none_] at member
    cases member
  · rw [own, openings_coreActions] at member
    split at member
    · next system => exact ⟨info, e.1, core, mem_coreEvents.mpr member, by rw [if_pos system]⟩
    · next process =>
        obtain ⟨o, listed, inside⟩ := List.mem_flatMap.mp member
        obtain ⟨tid, there, same⟩ := List.mem_map.mp inside
        refine ⟨info, o, core, mem_coreEvents.mpr (List.mem_append_left _ listed), ?_⟩
        rw [if_neg process]
        exact ⟨tid, there, same.symm⟩

theorem Planned.countsFor (inv : Inv inst s) (opened : e ∈ (s.workers i).opened) :
    CountsFor inst s i e.1.dataPos (fileOf s i e) := by
  obtain ⟨info, o, core, event, own⟩ := planned.mem_events here opened
  obtain ⟨tid, -⟩ := coreEvents_spec (planned.used call here) event
  refine ⟨inv.fileOf_mem opened, rfl, call, info, o, here, core, event, ?_⟩
  rw [PerfCall.attr, PerfCall.counted, fileOf]
  split at own
  · next system =>
      rw [own, if_pos system, if_pos system, tid]
      exact ⟨rfl, rfl, List.mem_singleton_self _⟩
  · next process =>
      obtain ⟨task, there, same⟩ := own
      rw [same, if_neg process, if_neg process]
      exact ⟨rfl, rfl, List.fst_mem_of_mem_zipIdx there⟩

/-- In a call for a process the files are read one by one, and there are no top-down events. -/
theorem Planned.single (process : call.tids ≠ []) (opened : e ∈ (s.workers i).opened) :
    ¬ (fileOf s i e).attr.Grouped ∧ e.1.readPos = none := by
  obtain ⟨info, o, -, event, own⟩ := planned.mem_events here opened
  rw [if_neg process] at own
  obtain ⟨task, -, same⟩ := own
  have unused : inst.usesTopDown call = false := by simp [PerfInstance.usesTopDown, process]
  have counter := mem_coreEvents.mp event
  rw [unused, if_neg Bool.false_ne_true, List.append_nil] at counter
  obtain ⟨k, found⟩ := List.mem_iff_getElem?.mp counter
  rw [fileOf, same]
  exact ⟨Bool.false_ne_true, (counterEvents_get found).2⟩

/-- In a call for the whole system the first file of a group is a leader. -/
theorem Planned.leads (inv : Inv inst s) (system : call.tids = []) {p : Nat} (first : p = 0 ∨ p = 11) (fd : Nat)
    (handle : s.perfEventHandle i p = some fd) : ∃ f ∈ s.files, f.fd = fd ∧ f.attr.Grouped ∧ f.leader = none := by
  obtain ⟨e, opened, slot, rfl⟩ := (inv.handle (none, i, p) fd).mp handle
  obtain ⟨info, o, -, event, own⟩ := planned.mem_events here opened
  obtain ⟨-, -, grouped, leader⟩ := coreEvents_spec (planned.used call here) event
  rw [if_pos system] at own
  simp only [Opening.slot, Prod.mk.injEq] at slot
  have pos : o.pos = p := own ▸ slot.2.2
  refine ⟨fileOf s i e, inv.fileOf_mem opened, rfl, ?_, ?_⟩
  · show e.1.attr.Grouped
    rw [own]
    exact grouped
  · show e.1.leader.bind _ = none
    rw [own, leader (by rw [pos]; exact first)]
    rfl

/-- In a call for the whole system the places are those in the order of the openings. -/
theorem Planned.dataPos_get (system : call.tids = []) {k : Nat} (found : (s.workers i).opened[k]? = some e) :
    e.1.dataPos = k := by
  obtain ⟨rest, whole, -⟩ := planned.begun call here i
  have action : (plan inst call s.core i)[k]? = some (.perfEventOpen e.1) := by
    obtain ⟨inside, -⟩ := List.getElem?_eq_some_iff.mp found
    rw [← whole, List.getElem?_append_left (by rw [List.length_map]; exact inside), List.getElem?_map, found]
    rfl
  rw [plan] at action
  split at action
  · next info core =>
      split at action
      · rw [coreActions_system system, List.getElem?_map, Option.map_eq_some_iff] at action
        obtain ⟨o, there, same⟩ := action
        cases o with
        | none => cases same
        | some o =>
            obtain rfl : o = e.1 := by simpa using same
            exact coreEvents_get there
      · cases action
  · cases action

end Opened

/-! ## The whole system -/

/-- In a call for the whole system a place shows 0 or the count of what is opened there. -/
theorem Planned.readPerfData_system (inv : Inv inst s) (planned : Planned inst s) {call : PerfCall}
    (here : s.call = some call) (system : call.tids = []) {kernel : Kernel}
    (documented : kernel.Documented PerfEventAttr.Grouped s.files) {i k : Nat} {v : BitVec 64}
    (found : (s.readPerfData inst kernel i)[k]? = some v) :
    v = 0 ∨ ∃ e : Opening × Nat, (s.workers i).opened[k]? = some e ∧ v = kernel.count e.2 := by
  have small := planned.used call here
  have first := planned.first here system i
  have second := planned.second here system i
  have leads := fun {p : Nat} (lead : p = 0 ∨ p = 11) => planned.leads (i := i) here inv system lead
  rw [planned.readPerfData_eq here system] at found
  have length := inv.length_readPerfDataHelper (leads (.inl rfl)) documented
    (show 3 + s.core.coreGenCounterNumUsed ≤ PERF_MAX_COUNTERS by show _ ≤ 20; omega)
  have front : ∀ {k : Nat} {v : BitVec 64},
      (State.readPerfDataHelper kernel s i 0 (3 + s.core.coreGenCounterNumUsed)
        (List.replicate PERF_MAX_COUNTERS 0))[k]? = some v →
      v = 0 ∨ ∃ e : Opening × Nat, (s.workers i).opened[k]? = some e ∧ v = kernel.count e.2 := by
    intro k v shown
    rcases inv.readPerfDataHelper_cases first (leads (.inl rfl)) documented (3 + s.core.coreGenCounterNumUsed)
      PERF_MAX_COUNTERS with nothing | ⟨-, whole⟩
    · rw [nothing] at shown
      exact .inl (List.eq_of_mem_replicate (List.mem_of_getElem? shown))
    · rw [whole] at shown
      rcases getElem?_padded shown with zero | ⟨e, listed, same⟩
      · exact .inl zero
      · rw [List.getElem?_take] at listed
        split at listed
        · exact .inr ⟨e, listed, same⟩
        · cases listed
  simp only at found
  split at found
  · rw [getElem?_overwrite (by rw [length]; show _ ≤ 20; omega)] at found
    split at found
    · exact front found
    · next behind =>
        split at found
        · rw [List.getElem?_take] at found
          split at found
          · rcases inv.readPerfDataHelper_cases second (leads (.inr rfl)) documented inst.topDownEvents.length _
              with nothing | ⟨-, whole⟩
            · rw [nothing] at found
              exact .inl (List.eq_of_mem_replicate (List.mem_of_getElem? found))
            · rw [whole] at found
              rcases getElem?_padded found with zero | ⟨e, listed, same⟩
              · exact .inl zero
              · rw [List.getElem?_drop] at listed
                have index : 3 + s.core.coreGenCounterNumUsed +
                    (k - (3 + s.core.coreGenCounterNumUsed)) = k := by omega
                rw [index] at listed
                exact .inr ⟨e, listed, same⟩
          · cases found
        · exact front found
  · exact front found

/-! ## The tasks of a process -/

/-- Where each step adds its value to what is at a place, the place has the sum in the end. -/
theorem getElem?_foldl_add {β : Type*} {add : List (BitVec 64) → β → List (BitVec 64)} {value : β → BitVec 64}
    {p : Nat} (step : ∀ data b v, data[p]? = some v → (add data b)[p]? = some (v + value b)) (l : List β)
    {data : List (BitVec 64)} {v : BitVec 64} (here : data[p]? = some v) :
    (l.foldl add data)[p]? = some (v + (l.map value).sum) := by
  induction l generalizing data v with
  | nil => simp [here]
  | cons b l ih =>
      rw [List.foldl_cons, List.map_cons, List.sum_cons, ← add_assoc]
      exact ih (step data b v here)

theorem length_foldl_same {β : Type*} {add : List (BitVec 64) → β → List (BitVec 64)}
    (step : ∀ data b, (add data b).length = data.length) (l : List β) (data : List (BitVec 64)) :
    (l.foldl add data).length = data.length := by
  induction l generalizing data with
  | nil => rfl
  | cons b l ih => rw [List.foldl_cons, ih, step]

/-- What a handle adds to its place. -/
def taskValue (kernel : Kernel) (handle : Option Nat) : BitVec 64 :=
  match handle.bind (kernel.read · 1) with
  | some [result] => result
  | _ => 0

/-- Each table adds the count at a position to what is there. -/
theorem readPerfData_tasks (kernel : Kernel) (tasks : s.perfEventTaskHandle ≠ []) {p : Nat}
    (low : p < PERF_MAX_COUNTERS) :
    (s.readPerfData inst kernel i)[p]? =
      some (s.perfEventTaskHandle.map fun cont => taskValue kernel (cont i p)).sum := by
  have zero : (List.replicate PERF_MAX_COUNTERS (0 : BitVec 64))[p]? = some 0 := by
    rw [List.getElem?_replicate, if_pos low]
  rw [State.readPerfData, if_pos tasks, ← zero_add (List.sum _)]
  apply getElem?_foldl_add _ _ zero
  intro data cont v here
  rw [List.getElem?_map, List.getElem?_zipIdx, here, taskValue]
  simp only [Option.map_some, Nat.zero_add, Option.some.injEq]
  generalize Option.bind _ _ = answer
  rcases answer with _ | _ | ⟨result, _ | _⟩
  · exact (add_zero v).symm
  · exact (add_zero v).symm
  · rfl
  · exact (add_zero v).symm

theorem length_readPerfData_tasks (kernel : Kernel) (tasks : s.perfEventTaskHandle ≠ []) :
    (s.readPerfData inst kernel i).length = PERF_MAX_COUNTERS := by
  rw [State.readPerfData, if_pos tasks, length_foldl_same, List.length_replicate]
  intro data cont
  rw [List.length_map, List.length_zipIdx]

/-- The file that table `j` adds to a place. -/
def taskFile (kernel : Kernel) (s : State) (i p j : Nat) : Option (File PerfEventAttr) :=
  (s.handle (some j, i, p)).bind fun fd =>
    if (kernel.read fd 1).isSome then s.files.find? (·.fd = fd) else none

theorem sum_filterMap {β γ : Type*} (f : β → Option γ) (count : γ → BitVec 64) (l : List β) :
    ((l.filterMap f).map count).sum = (l.map fun b => ((f b).map count).getD 0).sum := by
  induction l with
  | nil => rfl
  | cons b l ih =>
      cases found : f b with
      | none => simp [found, ih]
      | some c => simp [found, ih]

section Tasks

variable (inv : Inv inst s) (planned : Planned inst s) {call : PerfCall} (here : s.call = some call)
  (process : call.tids ≠ []) {kernel : Kernel}

include inv

omit planned here process in
theorem Inv.taskFile_some {p j : Nat} {f : File PerfEventAttr} (found : taskFile kernel s i p j = some f) :
    s.handle (some j, i, p) = some f.fd ∧ (kernel.read f.fd 1).isSome ∧
      ∃ e ∈ (s.workers i).opened, e.1.slot i = (some j, i, p) ∧ f = fileOf s i e := by
  obtain ⟨fd, handle, read⟩ := Option.bind_eq_some_iff.mp found
  split at read
  · next given =>
      have member := List.mem_of_find?_eq_some read
      have same : f.fd = fd := by simpa using List.find?_some read
      obtain ⟨e, opened, slot, file⟩ := (inv.handle _ fd).mp handle
      have whole : f = fileOf s i e :=
        List.inj_on_of_nodup_map inv.distinct member (inv.fileOf_mem opened) (same.trans file.symm)
      rw [same]
      exact ⟨handle, given, e, opened, slot, whole⟩
  · cases read

include planned here process

/-- What a handle of a process adds is the count of its file. -/
theorem Planned.taskValue_eq (documented : kernel.Documented PerfEventAttr.Grouped s.files) (p j : Nat) :
    taskValue kernel (s.handle (some j, i, p)) = ((taskFile kernel s i p j).map fun f => kernel.count f.fd).getD 0 := by
  cases handle : s.handle (some j, i, p) with
  | none => simp [taskValue, taskFile, handle]
  | some fd =>
      obtain ⟨e, opened, slot, rfl⟩ := (inv.handle _ fd).mp handle
      have member := inv.fileOf_mem opened
      have single := documented.single _ member (planned.single here process opened).1 1
      cases read : kernel.read e.2 1 with
      | none => simp [taskValue, taskFile, handle, read]
      | some data =>
          have value : data = [kernel.count e.2] := single data read
          have there : ∃ f, s.files.find? (·.fd = e.2) = some f := by
            rw [← Option.isSome_iff_exists, List.find?_isSome]
            exact ⟨fileOf s i e, member, by simp [fileOf]⟩
          obtain ⟨f, found⟩ := there
          have same : f.fd = e.2 := by simpa using List.find?_some found
          simp [taskValue, taskFile, handle, read, value, found, same]

/-- A place of the data shows the sum over the files of the tasks that could be read. -/
theorem Planned.readPerfData_process (documented : kernel.Documented PerfEventAttr.Grouped s.files) {k : Nat}
    (low : k < PERF_MAX_COUNTERS) :
    (s.readPerfData inst kernel i)[k]? = some
      (((List.range call.tids.length).filterMap (taskFile kernel s i k)).map fun f => kernel.count f.fd).sum := by
  rw [readPerfData_tasks kernel (planned.tables here process) low, sum_filterMap]
  congr 2
  apply List.ext_getElem
  · rw [List.length_map, List.length_map, List.length_range, planned.tasks call here]
  · intro j first second
    rw [List.length_map] at first
    rw [List.getElem_map, List.getElem_map, List.getElem_range,
      ← planned.taskValue_eq inv here process documented k j]
    simp [State.handle, List.getElem?_eq_getElem first]

end Tasks

/-- Files of the event that a place of a core is for, at most one for each task. -/
structure OwnFiles (inst : PerfInstance) (s : State) (i k : Nat) (files : List (File PerfEventAttr)) : Prop where
  distinct : files.Nodup
  own : ∀ f ∈ files, CountsFor inst s i k f
  few : ∀ call, s.call = some call → files.length ≤ call.counted.length

theorem ownFiles_nil {k : Nat} : OwnFiles inst s i k [] :=
  ⟨List.nodup_nil, nofun, fun _ _ => Nat.zero_le _⟩

/-- After `cleanupPMU` there are only zeros. -/
theorem Closed.readPerfData_zero (closed : Closed s) {kernel : Kernel} {i k : Nat} {v : BitVec 64}
    (found : (s.readPerfData inst kernel i)[k]? = some v) : v = 0 := by
  have zeros : ∀ p num n, State.readPerfDataHelper kernel s i p num (List.replicate n 0) = List.replicate n 0 := by
    intro p num n
    rw [State.readPerfDataHelper, closed.handles i p]
    simp
  have member := List.mem_of_getElem? found
  simp only [State.readPerfData, closed.tasks, ne_eq, not_true_eq_false, if_false, zeros] at member
  split at member
  · rcases mem_overwrite member with data | values
    · exact List.eq_of_mem_replicate data
    · exact List.eq_of_mem_replicate (List.mem_of_mem_take values)
  · exact List.eq_of_mem_replicate member

/-- The files that the tables of a process give for a place. -/
theorem Planned.ownFiles_tasks (inv : Inv inst s) (planned : Planned inst s) {call : PerfCall}
    (here : s.call = some call) (process : call.tids ≠ []) (kernel : Kernel) (i k : Nat) :
    OwnFiles inst s i k ((List.range call.tids.length).filterMap (taskFile kernel s i k)) := by
  constructor
  case distinct =>
    refine List.nodup_range.filterMap fun a b f first second => ?_
    have same := inv.slot_injective (inv.taskFile_some first).1 (inv.taskFile_some second).1
    simpa using same
  case own =>
    intro f listed
    obtain ⟨j, -, file⟩ := List.mem_filterMap.mp listed
    obtain ⟨-, -, e, opened, slot, rfl⟩ := inv.taskFile_some file
    have place : e.1.dataPos = k := by
      simp only [Opening.slot, Prod.mk.injEq] at slot
      rw [Opening.dataPos, (planned.single here process opened).2]
      exact slot.2.2
    rw [← place]
    exact planned.countsFor here inv opened
  case few =>
    intro c there
    rw [here, Option.some.injEq] at there
    rw [← there, PerfCall.counted, if_neg process]
    exact (List.length_filterMap_le ..).trans List.length_range.le

/-- The one file of a place in a call for the whole system. -/
theorem Planned.ownFiles_system (inv : Inv inst s) (planned : Planned inst s) {call : PerfCall}
    (here : s.call = some call) (system : call.tids = []) {i k : Nat} {e : Opening × Nat}
    (opened : (s.workers i).opened[k]? = some e) : OwnFiles inst s i k [fileOf s i e] := by
  constructor
  case distinct => exact List.nodup_singleton _
  case own =>
    intro f listed
    rw [List.mem_singleton.mp listed, ← planned.dataPos_get here system opened]
    exact planned.countsFor here inv (List.mem_of_getElem? opened)
  case few =>
    intro c there
    rw [here, Option.some.injEq] at there
    rw [← there, PerfCall.counted, if_pos system]
    exact le_rfl

/-- Whatever has become of a call and of the reads, a place of the data shows what files of its own event have
counted, or 0 if there are none. -/
theorem Planned.readPerfData_own (inv : Inv inst s) (planned : Planned inst s) {kernel : Kernel}
    (documented : kernel.Documented PerfEventAttr.Grouped s.files) {i k : Nat} {v : BitVec 64}
    (found : (s.readPerfData inst kernel i)[k]? = some v) :
    ∃ files, OwnFiles inst s i k files ∧ v = (files.map fun f => kernel.count f.fd).sum := by
  cases here : s.call with
  | none => exact ⟨[], ownFiles_nil, (planned.idle here).readPerfData_zero found⟩
  | some call =>
      by_cases system : call.tids = []
      · rcases planned.readPerfData_system inv here system documented found with rfl | ⟨e, opened, rfl⟩
        · exact ⟨[], ownFiles_nil, rfl⟩
        · exact ⟨_, planned.ownFiles_system inv here system opened, by simp [fileOf]⟩
      · have low : k < PERF_MAX_COUNTERS := by
          have length : (s.readPerfData inst kernel i).length = _ :=
            length_readPerfData_tasks kernel (planned.tables here system)
          rw [← length]
          exact (List.getElem?_eq_some_iff.mp found).1
        rw [planned.readPerfData_process inv here system documented low, Option.some.injEq] at found
        exact ⟨_, planned.ownFiles_tasks inv here system kernel i k, found.symm⟩

end Pcm.Perf
