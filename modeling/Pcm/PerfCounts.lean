import Pcm.PerfPlaces
import Pcm.RegisterBits

/-!
# The counts after a successful call

Where the worker of a core has come to its end, every event is found where `readAndAggregate`
(`cpucounters.cpp:5740-5770`) looks for it: the counters at their positions, the top-down events at `perfTopDownPos`,
and for a process the sum over its tasks.
-/

namespace Pcm.Perf

open BitFields PerfEvents StdString Transition

variable {inst : PerfInstance} {s t : State} {i : Nat}

/-! ## The general events -/

theorem registerFields_eq (x : BitVec 64) :
    registerFields x = ((⟨0, 8⟩ : Field).get x, (⟨8, 8⟩ : Field).get x) := by
  rw [registerFields, extractBits_eq_get x (by decide) (by decide), extractBits_eq_get x (by decide) (by decide)]
  rfl

theorem registerFields_set {f : Field} (behind : 16 ≤ f.position) (x v : BitVec 64) :
    registerFields (f.set x v) = registerFields x := by
  have first : f.Disjoint ⟨0, 8⟩ := .inr (by show 0 + 8 ≤ _; omega)
  have second : f.Disjoint ⟨8, 8⟩ := .inr behind
  rw [registerFields_eq, registerFields_eq, get_set_of_disjoint first, get_set_of_disjoint second]

theorem setWidth_low (n : BitVec 32) : n.setWidth 64 &&& lowBits 64 8 = (n.setWidth 8).setWidth 64 := by
  apply BitVec.eq_of_getLsbD_eq
  intro k inside
  rw [BitVec.getLsbD_and, getLsbD_lowBits]
  simp only [BitVec.getLsbD_setWidth, inside, decide_true, Bool.true_and]
  exact Bool.and_comm _ _

/-- The fields that an event is chosen by have what its description says, whatever the register has held. -/
theorem registerFields_setEvent (reg : BitVec 64) (desc : EventDescription) :
    registerFields (setEvent reg (desc.eventNumber.setWidth 64) (desc.umaskValue.setWidth 64)) =
      eventFields desc := by
  have apart : (⟨8, 8⟩ : Field).Disjoint ⟨0, 8⟩ := by decide
  simp only [setEvent, List.foldl_cons, List.foldl_nil]
  repeat rw [registerFields_set (by decide)]
  rw [registerFields_eq, get_set_of_disjoint apart, get_set_self (by decide), get_set_self (by decide), setWidth_low,
    setWidth_low]
  rfl

theorem registerFields_eventSelectReg (call : PerfCall) (s : CoreState) (core : CoreInfo) (j : Nat) :
    registerFields (eventSelectReg inst call s i core j) = s.eventOf inst.toInstance call.request core j := by
  simp only [eventSelectReg, CoreState.eventOf]
  split
  · cases call.request.extended.bind (·.gpCounterCfg) with
    | some regs => exact registerFields_set (f := ⟨22, 1⟩) (by decide) (regs j) 1
    | none => exact registerFields_setEvent (call.eventSelect i j) (s.coreEventDesc j)
  · cases call.request.extended.bind (·.gpCounterHybridAtomCfg) with
    | some regs => exact registerFields_set (f := ⟨22, 1⟩) (by decide) (regs j) 1
    | none => exact registerFields_setEvent (call.eventSelect i j) (s.hybridAtomEventDesc j)

/-- The flag in the highest bit of a configuration is not among the fields. -/
theorem registerFields_config (call : PerfCall) (s : CoreState) (core : CoreInfo) (j : Nat) :
    registerFields (genericEvent inst call s i core j).config = s.eventOf inst.toInstance call.request core j := by
  rw [← registerFields_eventSelectReg (i := i)]
  show registerFields (1#64 <<< 63 + eventSelectReg inst call s i core j) = _
  generalize eventSelectReg inst call s i core j = reg
  rw [registerFields_eq, registerFields_eq, Prod.mk.injEq]
  have sum : (1#64 <<< 63 + reg).toNat = (2 ^ 63 + reg.toNat) % 2 ^ 64 := by
    rw [BitVec.toNat_add]
    rfl
  have small := reg.isLt
  constructor
  · apply BitVec.eq_of_toNat_eq
    rw [get_toNat, get_toNat, sum]
    show _ / 2 ^ 0 % 2 ^ 8 = _ / 2 ^ 0 % 2 ^ 8
    omega
  · apply BitVec.eq_of_toNat_eq
    rw [get_toNat, get_toNat, sum]
    show _ / 2 ^ 8 % 2 ^ 8 = _ / 2 ^ 8 % 2 ^ 8
    omega

/-! ## Workers that have come to their end -/

/-- The worker of a core has opened all its events. -/
def Done (s : State) (i : Nat) : Prop := (s.workers i).failed = false ∧ (s.workers i).todo = []

/-- Without an unknown token every top-down event is opened, at its place. -/
theorem readableTopDown_get {core : CoreState} (all : none ∉ topDownOpenings inst core) :
    (readableTopDown inst core).length = inst.topDownEvents.length ∧
    ∀ k o, (readableTopDown inst core)[k]? = some o →
      inst.topDownEvents[k]? = some o.pos ∧ o.readPos = some (3 + core.coreGenCounterNumUsed + k) := by
  have whole : topDownOpenings inst core = (readableTopDown inst core).map some := by
    have general : ∀ l : List (Option Opening), none ∉ l → l = (l.filterMap id).map some := by
      intro l
      induction l with
      | nil => exact fun _ => rfl
      | cons x l ih =>
          intro absent
          cases x with
          | none => exact absurd List.mem_cons_self absent
          | some o =>
              have rest := ih fun member => absent (List.mem_cons_of_mem _ member)
              rw [List.filterMap_cons, id, List.map_cons, ← rest]
    exact general _ all
  have length := congrArg List.length whole
  simp only [topDownOpenings, List.length_map, List.length_zipIdx] at length
  refine ⟨length.symm, fun k o found => ?_⟩
  have listed : (topDownOpenings inst core)[k]? = some (some o) := by
    rw [whole, List.getElem?_map, found]
    rfl
  rw [topDownOpenings, List.getElem?_map, Option.map_eq_some_iff] at listed
  obtain ⟨event, place, same⟩ := listed
  rw [List.getElem?_zipIdx, Option.map_eq_some_iff] at place
  obtain ⟨pos, there, rfl⟩ := place
  rw [Option.map_eq_some_iff] at same
  obtain ⟨fields, -, rfl⟩ := same
  exact ⟨there, by simp⟩

/-- What has been opened for the whole core has its handle at its position. -/
theorem Inv.exists_handle (inv : Inv inst s) {o : Opening} (opened : o ∈ (s.workers i).opened.map Prod.fst)
    (task : o.task = none) : ∃ fd, s.perfEventHandle i o.pos = some fd := by
  obtain ⟨e, member, rfl⟩ := List.mem_map.mp opened
  refine ⟨e.2, (inv.handle (none, i, e.1.pos) e.2).mpr ⟨e, member, ?_, rfl⟩⟩
  rw [Opening.slot, task]

section Done

variable (planned : Planned inst s) {call : PerfCall} (here : s.call = some call) (done : Done s i)

include planned here done

/-- All actions of the plan have been openings. -/
theorem Done.plan_eq :
    plan inst call s.core i = (s.workers i).opened.map fun e => Action.perfEventOpen e.1 := by
  obtain ⟨rest, whole, left⟩ := planned.begun call here i
  rw [left done.1, done.2, List.append_nil] at whole
  exact whole.symm

variable {info : CoreInfo} (core : inst.cores[i]? = some info) (online : info.online)

include core online

theorem Done.coreActions_eq :
    coreActions inst call s.core i info =
      (s.workers i).opened.map fun e => Action.perfEventOpen e.1 := by
  have whole := done.plan_eq planned here
  simp only [plan, core, online, if_true] at whole
  exact whole

/-- There was no unknown token. -/
theorem Done.readable (uses : inst.usesTopDown call) : none ∉ topDownOpenings inst s.core := by
  intro unknown
  have stuck : Action.unknownToken ∈ coreActions inst call s.core i info := by
    rw [coreActions, coreEvents, if_pos uses]
    exact List.mem_flatMap.mpr ⟨none, List.mem_append_right _ unknown, List.mem_singleton_self _⟩
  rw [done.coreActions_eq planned here core online] at stuck
  obtain ⟨e, -, other⟩ := List.mem_map.mp stuck
  cases other

theorem Done.opened_eq (system : call.tids = []) :
    (s.workers i).opened.map Prod.fst = counterEvents inst call s.core i info ++
      if inst.usesTopDown call then readableTopDown inst s.core else [] := by
  have list := congrArg openings (done.coreActions_eq planned here core online)
  rw [openings_map_open, openings_coreActions, if_pos system] at list
  exact list.symm

/-- The leader of the first group is open. -/
theorem Done.exists_leader (inv : Inv inst s) (system : call.tids = []) :
    ∃ fd, s.perfEventHandle i 0 = some fd := by
  have listed : ({ pos := 0, attr := fixedEvent (initFixedCtrl call.request) 1 0 } : Opening) ∈
      (s.workers i).opened.map Prod.fst := by
    rw [done.opened_eq planned here core online system]
    exact List.mem_append_left _ List.mem_cons_self
  exact inv.exists_handle listed rfl

/-- The leader of the top-down events is open where they are used. -/
theorem Done.exists_slots (inv : Inv inst s) (system : call.tids = []) (uses : inst.usesTopDown call) :
    ∃ fd, s.perfEventHandle i PERF_TOPDOWN_SLOTS_POS = some fd := by
  obtain ⟨number, get⟩ := readableTopDown_get (done.readable planned here core online uses)
  have some_ : 0 < (readableTopDown inst s.core).length := by
    rw [number, PerfInstance.topDownEvents, List.length_append]
    exact Nat.add_pos_left (by decide) _
  have found := List.getElem?_eq_getElem some_
  obtain ⟨pos, -⟩ := get 0 _ found
  have first : inst.topDownEvents[0]? = some PERF_TOPDOWN_SLOTS_POS := rfl
  rw [first, Option.some.injEq] at pos
  have member := List.mem_of_getElem? found
  obtain ⟨event, -, -, task, -⟩ := mem_readableTopDown s.core member
  have listed : (readableTopDown inst s.core)[0] ∈ (s.workers i).opened.map Prod.fst := by
    rw [done.opened_eq planned here core online system, if_pos uses]
    exact List.mem_append_right _ member
  rw [pos]
  exact inv.exists_handle listed task

end Done

/-- The place where `readAndAggregate` looks for an event. -/
def place (s : State) (o : Opening) : Nat :=
  match o.readPos with
  | none => o.pos
  | some _ => s.perfTopDownPos o.pos

/-- Where all events are open it looks at the place of the event. -/
theorem Done.place_eq (planned : Planned inst s) {call : PerfCall} (here : s.call = some call) (done : Done s i)
    {e : Opening × Nat} (opened : e ∈ (s.workers i).opened) : place s e.1 = e.1.dataPos := by
  rw [place, Opening.dataPos]
  cases read : e.1.readPos with
  | none => rfl
  | some readPos => exact planned.positions call here i done.1 e opened readPos read

theorem take_padded (kernel : Kernel) (a : List (Opening × Nat)) (size : Nat) :
    (padded kernel a size).take a.length = a.map fun e => kernel.count e.2 := by
  rw [padded, List.take_left' (List.length_map ..)]

theorem drop_padded (kernel : Kernel) (a : List (Opening × Nat)) (n size : Nat) :
    (padded kernel a size).drop (a.length + n) = List.replicate (size - a.length - n) 0 := by
  rw [padded, ← List.drop_drop, List.drop_left' (List.length_map ..), List.drop_replicate]

/-- The counts of the second group stand behind those of the first. -/
theorem padded_append (kernel : Kernel) (a b : List (Opening × Nat)) (size : Nat) :
    State.overwrite (padded kernel a size) a.length ((padded kernel b size).take b.length) =
      padded kernel (a ++ b) size := by
  rw [State.overwrite, take_padded, take_padded, List.length_map, drop_padded, padded, List.map_append,
    List.length_append, Nat.sub_sub]

/-- Zeros change nothing behind the counts. -/
theorem padded_zeros (kernel : Kernel) (a : List (Opening × Nat)) {n size : Nat}
    (fits : a.length + n ≤ size) :
    State.overwrite (padded kernel a size) a.length (List.replicate n 0) = padded kernel a size := by
  have zeros : n + (size - a.length - n) = size - a.length := by omega
  rw [State.overwrite, take_padded, List.length_replicate, drop_padded, List.append_assoc,
    List.replicate_append_replicate, zeros, padded]

section Reading

variable (inv : Inv inst s) (planned : Planned inst s) {call : PerfCall} (here : s.call = some call)
  (done : Done s i) {info : CoreInfo} (core : inst.cores[i]? = some info) (online : info.online)
  (system : call.tids = []) {kernel : Kernel} (answers : kernel.Answers PerfEventAttr.Grouped s.files)

include inv planned here done core online system answers

/-- The group of the top-down events gives its counts. -/
theorem Done.overwrite_topDown (uses : inst.usesTopDown call) :
    State.overwrite
        (padded kernel ((s.workers i).opened.take (3 + s.core.coreGenCounterNumUsed)) PERF_MAX_COUNTERS)
        (3 + s.core.coreGenCounterNumUsed)
        ((State.readPerfDataHelper kernel s i 11 inst.topDownEvents.length
          (List.replicate PERF_MAX_COUNTERS 0)).take inst.topDownEvents.length) =
      padded kernel (s.workers i).opened PERF_MAX_COUNTERS := by
  have length := congrArg List.length (done.opened_eq planned here core online system)
  have number := (readableTopDown_get (done.readable planned here core online uses)).1
  rw [List.length_map, List.length_append, length_counterEvents, if_pos uses, number] at length
  have front : ((s.workers i).opened.take (3 + s.core.coreGenCounterNumUsed)).length =
      3 + s.core.coreGenCounterNumUsed := by
    rw [List.length_take]
    omega
  have back : ((s.workers i).opened.drop (3 + s.core.coreGenCounterNumUsed)).length =
      inst.topDownEvents.length := by
    rw [List.length_drop]
    omega
  obtain ⟨fd, handle⟩ := done.exists_slots planned here core online inv system uses
  have topDown := inv.readPerfDataHelper_whole (planned.second here system i)
    (planned.leads here inv system (.inr rfl)) answers PERF_MAX_COUNTERS handle
  rw [back] at topDown
  have both := padded_append kernel ((s.workers i).opened.take (3 + s.core.coreGenCounterNumUsed))
    ((s.workers i).opened.drop (3 + s.core.coreGenCounterNumUsed)) PERF_MAX_COUNTERS
  rw [front, back, List.take_append_drop] at both
  rw [topDown, both]

/-- Where no top-down events are used, reading them gives zeros. -/
theorem Done.overwrite_zeros (unused : ¬ inst.usesTopDown call) :
    State.overwrite
        (padded kernel ((s.workers i).opened.take (3 + s.core.coreGenCounterNumUsed)) PERF_MAX_COUNTERS)
        (3 + s.core.coreGenCounterNumUsed)
        ((State.readPerfDataHelper kernel s i 11 inst.topDownEvents.length
          (List.replicate PERF_MAX_COUNTERS 0)).take inst.topDownEvents.length) =
      padded kernel (s.workers i).opened PERF_MAX_COUNTERS := by
  have length := congrArg List.length (done.opened_eq planned here core online system)
  rw [List.length_map, List.length_append, length_counterEvents, if_neg unused, List.length_nil, Nat.add_zero]
    at length
  have none_ : (s.workers i).opened.drop (3 + s.core.coreGenCounterNumUsed) = [] := by
    rw [← length, List.drop_length]
  have zeros : State.readPerfDataHelper kernel s i 11 inst.topDownEvents.length
      (List.replicate PERF_MAX_COUNTERS 0) = List.replicate PERF_MAX_COUNTERS 0 := by
    rcases inv.readPerfDataHelper_cases (planned.second here system i)
      (planned.leads here inv system (.inr rfl)) answers.toDocumented
      inst.topDownEvents.length PERF_MAX_COUNTERS with nothing | ⟨-, same⟩
    · exact nothing
    · rw [same, none_]
      rfl
  have small := planned.used call here
  have size : inst.topDownEvents.length ≤ 9 := by
    rw [PerfInstance.topDownEvents]
    cases inst.hwTMAL2Supported <;> decide
  have twenty : PERF_MAX_COUNTERS = 20 := rfl
  have short : min inst.topDownEvents.length PERF_MAX_COUNTERS = inst.topDownEvents.length := by
    omega
  rw [zeros, ← length, List.take_length, List.take_replicate, short]
  exact padded_zeros kernel (s.workers i).opened (by omega)

/-- Where the kernel answers, reading a core whose worker is done gives the counts of all its events, in the
order in which they were opened. -/
theorem Done.readPerfData_eq :
    s.readPerfData inst kernel i = padded kernel (s.workers i).opened PERF_MAX_COUNTERS := by
  have small := planned.used call here
  have length := congrArg List.length (done.opened_eq planned here core online system)
  rw [List.length_map, List.length_append, length_counterEvents] at length
  have front : ((s.workers i).opened.take (3 + s.core.coreGenCounterNumUsed)).length =
      3 + s.core.coreGenCounterNumUsed := by
    rw [List.length_take]
    omega
  obtain ⟨fd, handle⟩ := done.exists_leader planned here core online inv system
  have counters := inv.readPerfDataHelper_whole (planned.first here system i)
    (planned.leads here inv system (.inl rfl)) answers PERF_MAX_COUNTERS handle
  rw [front] at counters
  have twenty : PERF_MAX_COUNTERS = 20 := rfl
  rw [planned.readPerfData_eq here system]
  simp only
  rw [counters, length_padded (by omega)]
  split
  · by_cases uses : inst.usesTopDown call
    · exact done.overwrite_topDown inv planned here core online system answers uses
    · exact done.overwrite_zeros inv planned here core online system answers uses
  · next unread =>
      have uses : ¬ inst.usesTopDown call := by
        intro uses
        simp only [PerfInstance.usesTopDown, Bool.and_eq_true] at uses
        simp [uses] at unread
      rw [if_neg uses, List.length_nil, Nat.add_zero] at length
      rw [← length, List.take_length]

end Reading

/-! ## The tasks of a process -/

theorem exists_forall₂ {α β : Type*} {R : α → β → Prop} {l : List α} (all : ∀ x ∈ l, ∃ y, R x y) :
    ∃ ys, List.Forall₂ R l ys := by
  induction l with
  | nil => exact ⟨[], .nil⟩
  | cons x l ih =>
      obtain ⟨y, first⟩ := all x List.mem_cons_self
      obtain ⟨ys, rest⟩ := ih fun z member => all z (List.mem_cons_of_mem _ member)
      exact ⟨y :: ys, .cons first rest⟩

/-- The open files that count an event of core `i`, one for each task. -/
def Counting (s : State) (call : PerfCall) (i : Nat) (o : Opening) (files : List (File PerfEventAttr)) : Prop :=
  List.Forall₂ (fun tid f => f ∈ s.files ∧ f.cpu = i ∧ f.tid = tid ∧ f.attr = call.attr o) call.counted files

/-- An event of core `i` is counted, and the sum over the tasks is read at its place. -/
def Shown (inst : PerfInstance) (s : State) (call : PerfCall) (i : Nat) (o : Opening) : Prop :=
  ∃ files, Counting s call i o files ∧
    ∀ kernel : Kernel, kernel.Answers PerfEventAttr.Grouped s.files →
      (s.readPerfData inst kernel i)[place s o]? = some (files.map fun f => kernel.count f.fd).sum

/-- In a call for a process an event has a file for each task. -/
theorem Done.exists_taskFile (inv : Inv inst s) (planned : Planned inst s) {call : PerfCall}
    (here : s.call = some call) (done : Done s i) {info : CoreInfo} (core : inst.cores[i]? = some info)
    (online : info.online) (process : call.tids ≠ []) {o : Opening}
    (member : o ∈ counterEvents inst call s.core i info) {tid : Int × Nat} (task : tid ∈ call.tids.zipIdx) :
    ∃ f : File PerfEventAttr, (f ∈ s.files ∧ f.cpu = i ∧ f.tid = tid.1 ∧ f.attr = call.attr o) ∧
      s.handle (some tid.2, i, o.pos) = some f.fd := by
  have list := congrArg openings (done.coreActions_eq planned here core online)
  rw [openings_map_open, openings_coreActions, if_neg process] at list
  have listed : o.forTask tid ∈ (s.workers i).opened.map Prod.fst := by
    rw [← list]
    exact List.mem_flatMap.mpr ⟨o, member, List.mem_map_of_mem task⟩
  obtain ⟨e, opened, same⟩ := List.mem_map.mp listed
  refine ⟨fileOf s i e, ⟨inv.fileOf_mem opened, rfl, ?_, ?_⟩, ?_⟩
  · show e.1.tid = tid.1
    rw [same]
    rfl
  · show e.1.attr = call.attr o
    rw [same, PerfCall.attr, if_neg process]
    rfl
  · refine (inv.handle _ e.2).mpr ⟨e, opened, ?_, rfl⟩
    rw [same]
    rfl

/-- It shows the sum over the tasks. -/
theorem Done.shown_process (inv : Inv inst s) (planned : Planned inst s) {call : PerfCall}
    (here : s.call = some call) (done : Done s i) {info : CoreInfo} (core : inst.cores[i]? = some info)
    (online : info.online) (process : call.tids ≠ []) {o : Opening}
    (member : o ∈ counterEvents inst call s.core i info) : Shown inst s call i o := by
  have length := planned.tasks call here
  obtain ⟨files, all⟩ := exists_forall₂ fun tid task =>
    done.exists_taskFile inv planned here core online process member task
  refine ⟨files, ?_, ?_⟩
  · rw [Counting, PerfCall.counted, if_neg process, ← List.zipIdx_map_fst 0 call.tids, List.forall₂_map_left_iff]
    exact all.imp fun tid f both => both.1
  · intro kernel answers
    obtain ⟨-, high, -⟩ := mem_counterEvents call s.core info member
    have small := planned.used call here
    obtain ⟨k, found⟩ := List.mem_iff_getElem?.mp member
    have pos : place s o = o.pos := by
      rw [place, (counterEvents_get found).2]
    rw [pos, readPerfData_tasks kernel (planned.tables here process) (by show _ < 20; omega)]
    congr 2
    apply List.ext_getElem
    · rw [List.length_map, List.length_map, length, ← all.length_eq, List.length_zipIdx]
    · intro k first second
      rw [List.length_map] at first second
      have entry := all.get (by rw [List.length_zipIdx]; omega) second
      have table : s.handle (some k, i, o.pos) = some files[k].fd := by
        have same := entry.2
        simpa using same
      have value : s.perfEventTaskHandle[k] i o.pos = some files[k].fd := by
        simpa [State.handle, List.getElem?_eq_getElem first] using table
      obtain ⟨listed, -, -, attr⟩ := entry.1
      have alone : ¬ (files.get ⟨k, second⟩).attr.Grouped := by
        rw [attr, PerfCall.attr, if_neg process]
        exact Bool.false_ne_true
      have read : kernel.read files[k].fd 1 = some [kernel.count files[k].fd] :=
        answers.read_single listed alone le_rfl
      simp [value, taskValue, read]

/-- In a call for the whole system an event shows the count of its file. -/
theorem Done.shown_system (inv : Inv inst s) (planned : Planned inst s) {call : PerfCall}
    (here : s.call = some call) (done : Done s i) {info : CoreInfo} (core : inst.cores[i]? = some info)
    (online : info.online) (system : call.tids = []) {o : Opening}
    (member : o ∈ counterEvents inst call s.core i info ++
      if inst.usesTopDown call then readableTopDown inst s.core else []) : Shown inst s call i o := by
  have tid : o.tid = -1 := (coreEvents_spec (planned.used call here) (mem_coreEvents.mpr member)).1
  rw [← done.opened_eq planned here core online system] at member
  obtain ⟨e, opened, rfl⟩ := List.mem_map.mp member
  obtain ⟨k, found⟩ := List.mem_iff_getElem?.mp opened
  refine ⟨[fileOf s i e], ?_, ?_⟩
  · rw [Counting, PerfCall.counted, if_pos system]
    refine .cons ⟨inv.fileOf_mem opened, rfl, tid, ?_⟩ .nil
    rw [PerfCall.attr, if_pos system]
    rfl
  · intro kernel answers
    obtain ⟨inside, -⟩ := List.getElem?_eq_some_iff.mp found
    rw [done.place_eq planned here opened, planned.dataPos_get here system found,
      done.readPerfData_eq inv planned here core online system answers, padded,
      List.getElem?_append_left (by rw [List.length_map]; exact inside), List.getElem?_map, found]
    simp [fileOf]

/-! ## The end of a call -/

/-- A call succeeds only where every worker has opened all its events. -/
theorem finish_success (inv : Inv inst s) {call : PerfCall} (here : s.call = some call)
    (all : ∀ i < inst.cores.length, (s.workers i).finished) (success : (s.finish inst call).1 = .success)
    {info : CoreInfo} (core : inst.cores[i]? = some info) (online : info.online) : Done s i := by
  have usable : s.core.canUsePerf = true := by
    by_contra unused
    have none_ := (inv.perf (by simpa using unused)).call
    rw [here] at none_
    cases none_
  obtain ⟨inside, listed⟩ := List.getElem?_eq_some_iff.mp core
  have mine : (i, info) ∈ inst.onlineCores := by
    rw [Instance.onlineCores, List.mem_filter]
    refine ⟨List.mem_iff_getElem?.mpr ⟨i, ?_⟩, online⟩
    rw [List.getElem?_zip_eq_some]
    exact ⟨by rw [List.getElem?_range inside], core⟩
  have going : (s.workers i).failed = false := by
    by_contra failed
    have kept := (sameEvents_programCores inst
      { call.toCall with perfOpens := fun i => !(s.workers i).failed } s.core).canUsePerf
    rw [usable] at kept
    simp only [State.finish, CoreState.programCores] at success kept
    split at success
    · cases success
    · next fine =>
        rw [if_neg fine] at kept
        apply fine
        rw [Bool.and_eq_true, List.any_eq_true]
        exact ⟨kept, (i, info), mine, by simpa using failed⟩
  refine ⟨going, ?_⟩
  have finished := all i inside
  rw [Worker.finished, going, Bool.false_or] at finished
  exact List.isEmpty_iff.mp finished

/-- Every event of an online core whose worker is done is shown. -/
theorem Done.shown (inv : Inv inst s) (planned : Planned inst s) {call : PerfCall}
    (here : s.call = some call) (done : Done s i) {info : CoreInfo} (core : inst.cores[i]? = some info)
    (online : info.online) {event : Option Opening} (member : event ∈ coreEvents inst call s.core i info) :
    ∃ o, event = some o ∧ Shown inst s call i o := by
  rcases List.mem_append.mp member with counter | topDown
  · obtain ⟨o, listed, rfl⟩ := List.mem_map.mp counter
    refine ⟨o, rfl, ?_⟩
    by_cases system : call.tids = []
    · exact done.shown_system inv planned here core online system (List.mem_append_left _ listed)
    · exact done.shown_process inv planned here core online system listed
  · split at topDown
    · next uses =>
        have system : call.tids = [] := by
          simp only [PerfInstance.usesTopDown, Bool.and_eq_true, decide_eq_true_eq] at uses
          exact uses.2
        have readable := done.readable planned here core online uses
        cases event with
        | none => exact absurd topDown readable
        | some o =>
            refine ⟨o, rfl, done.shown_system inv planned here core online system ?_⟩
            rw [if_pos uses, readableTopDown]
            exact List.mem_append_right _ (List.mem_filterMap.mpr ⟨some o, topDown, rfl⟩)
    · cases topDown

/-- The general events of an online core whose worker is done are those of the event tables. -/
theorem Done.shown_general (inv : Inv inst s) (planned : Planned inst s) {call : PerfCall}
    (here : s.call = some call) (done : Done s i) {info : CoreInfo} (core : inst.cores[i]? = some info)
    (online : info.online) {j : Nat} (used : j < s.core.coreGenCounterNumUsed) :
    ∃ o : Opening, o.pos = PERF_GEN_EVENT_0_POS + j ∧ o.readPos = none ∧
      registerFields o.attr.config = s.core.eventOf inst.toInstance call.request info j ∧
      Shown inst s call i o := by
  have listed : ({ pos := PERF_GEN_EVENT_0_POS + j, attr := genericEvent inst call s.core i info j
                   leader := some 0 } : Opening) ∈ counterEvents inst call s.core i info := by
    rw [counterEvents]
    refine List.mem_cons_of_mem _ (List.mem_cons_of_mem _ (List.mem_cons_of_mem _ ?_))
    exact List.mem_map.mpr ⟨j, List.mem_range.mpr used, rfl⟩
  obtain ⟨o, same, shown⟩ := done.shown inv planned here core online
    (List.mem_append_left _ (List.mem_map_of_mem listed))
  obtain rfl := Option.some.inj same
  exact ⟨_, rfl, rfl, registerFields_config call s.core info j, shown⟩

/-- PCM on Linux perf, whatever the kernel answers and however the workers interleave. Each open file has its handle
in one place, so closing leaves none. A place of the data never shows the count of another event. After a call that has
succeeded every event of an online core is counted by a file for each task, the sum is what is read at its place,
and general counter `j` counts event `j` of the tables. -/
theorem perf_sound (narrow : inst.coreGenCounterNumMax ≤ PERF_MAX_CUSTOM_COUNTERS) {core : CoreState}
    (reached : Reachable (Step inst) (start core) s) :
    ((s.handles inst).Perm (fds s.files) ∧ (fds s.files).Nodup) ∧
    ((s.closePerfHandles inst).files = [] ∧ (s.cleanupPMU inst).files = []) ∧
    (∀ kernel : Kernel, kernel.Documented PerfEventAttr.Grouped s.files → ∀ (i k : Nat) (v : BitVec 64),
      (s.readPerfData inst kernel i)[k]? = some v →
        ∃ files, OwnFiles inst s i k files ∧ v = (files.map fun f => kernel.count f.fd).sum) ∧
    (∀ call, s.running = true → s.call = some call → (∀ i < inst.cores.length, (s.workers i).finished) →
      (s.finish inst call).1 = .success →
      let t := (s.finish inst call).2
      ∀ i info, inst.cores[i]? = some info → info.online →
        (∀ event ∈ coreEvents inst call t.core i info, ∃ o, event = some o ∧ Shown inst t call i o) ∧
        ∀ j < t.core.coreGenCounterNumUsed, ∃ o : Opening, o.pos = PERF_GEN_EVENT_0_POS + j ∧ o.readPos = none ∧
          registerFields o.attr.config = t.core.eventOf inst.toInstance call.request info j ∧
          Shown inst t call i o) := by
  obtain ⟨inv, planned⟩ := planned_reachable narrow reached
  refine ⟨⟨inv.handles_perm, inv.distinct⟩, ⟨inv.closed.files, (inv.closed.withCore _).files⟩, ?_, ?_⟩
  · intro kernel documented i k v found
    exact planned.readPerfData_own inv documented found
  · intro call running here all success t i info core online
    have step : Step inst s t := .finish running here all
    have ended : Done s i := finish_success inv here all success core online
    have done : Done t i := ended
    have kept : Inv inst t := inv.step narrow step
    have still : Planned inst t := planned.step narrow inv step
    exact ⟨fun event member => done.shown kept still here core online member,
      fun j used => done.shown_general kept still here core online used⟩

/-! Two cores with one general counter and the first level of the top-down events, whose workers take turns. -/

section TwoCores

def twoCores : PerfInstance where
  cpuFamilyModel := .ICX
  coreGenCounterNumMax := 8
  cores := [⟨true, false⟩, ⟨true, false⟩]
  hwTMAL1Supported := true
  perfSupportsTopDown := true
  eventSource := fun pos => ascii "event=0x00,umask=0x8" ++ [48 + pos.toUInt8 % 8]

def oneCounter : PerfCall where
  request := .extCustomCoreEvents (some { nGPCounters := 1, gpCounterCfg := some fun _ => 0x412E })

/-- The kernel opens what the worker of a core asks for next, if there is something. -/
def openNext (s : State) (i : Nat) : State :=
  match (s.workers i).todo with
  | .perfEventOpen o :: rest =>
      if s.running = true ∧ (s.workers i).failed = false ∧ s.files.length + 3 ∉ fds s.files then
        s.perfEventOpen i o rest (some (s.files.length + 3))
      else s
  | _ => s

theorem reachable_openNext {core : CoreState} (reached : Reachable (Step twoCores) (start core) s) (order : List Nat) :
    Reachable (Step twoCores) (start core) (order.foldl openNext s) := by
  induction order generalizing s with
  | nil => exact reached
  | cons i order ih =>
      rw [List.foldl_cons]
      apply ih
      rw [openNext]
      split
      · next o rest todo =>
          split
          · next ready =>
              obtain ⟨running, going, free⟩ := ready
              refine reached.next (.open running going todo fun fd same => ?_)
              obtain rfl := Option.mem_some_iff.mp same
              exact free
          · exact reached
      · exact reached

/-- The state before the end of the call. -/
def allOpened : State :=
  (List.replicate 9 [0, 1]).flatten.foldl openNext ((start { nmiWatchdog := some 0 }).program twoCores oneCounter)

theorem reachable_allOpened : Reachable (Step twoCores) (start { nmiWatchdog := some 0 }) allOpened :=
  reachable_openNext (Relation.ReflTransGen.single (.program rfl)) _

/-- Each file has counted a hundred more than its number. -/
def hundreds : Kernel := .ofCounts (fun fd => BitVec.ofNat 64 (100 + fd)) PerfEventAttr.group allOpened.files

/-- On each core the slots are read behind the general counter, which is read behind the fixed ones. -/
theorem perf_sound_twoCores :
    let t := (allOpened.finish twoCores oneCounter).2
    (allOpened.handles twoCores).Perm (List.range' 3 18) ∧
    (∃ files, OwnFiles twoCores allOpened 1 4 files ∧ (files.map fun f => hundreds.count f.fd).sum = 112) ∧
    (∃ o, o.pos = PERF_TOPDOWN_SLOTS_POS ∧ place t o = 4 ∧ Shown twoCores t oneCounter 1 o) := by
  have sound := perf_sound (by decide) reachable_allOpened
  have numbers : fds allOpened.files = List.range' 3 18 := by decide +kernel
  have answers : hundreds.Answers PerfEventAttr.Grouped allOpened.files :=
    answers_ofCounts _ _ (numbers ▸ List.nodup_range')
  have read : (allOpened.readPerfData twoCores hundreds 1)[4]? = some 112 := by decide +kernel
  obtain ⟨files, own, sum⟩ := sound.2.2.1 hundreds answers.toDocumented 1 4 112 read
  have ended := sound.2.2.2 oneCounter rfl rfl (by decide +kernel) (by decide +kernel) 1 ⟨true, false⟩ rfl rfl
  obtain ⟨o, same, shown⟩ := ended.1
    (some { pos := 11, attr := topDownEvent (0, 0x83), readPos := some 4 }) (by decide +kernel)
  obtain rfl := Option.some.inj same
  refine ⟨numbers ▸ sound.1.1, ⟨files, own, sum.symm⟩, _, rfl, ?_, shown⟩
  decide +kernel

end TwoCores

end Pcm.Perf
