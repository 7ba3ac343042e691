import Pcm.PerfProgram

/-!
# The files that PCM holds open

Whatever the kernel answers and however the workers interleave: each open file has its handle in exactly one place, so
`closePerfHandles` closes every file once and nothing else, and no file is left when a call begins or the PMU has been
cleaned up. What a worker has opened is the beginning of its list of actions.
-/

namespace Pcm.Perf

open PerfEvents Transition

variable {inst : PerfInstance} {s : State} {i : Nat} {o : Opening}

/-- The openings among the actions of a worker. -/
def openings (actions : List Action) : List Opening :=
  actions.filterMap fun action =>
    match action with
    | .perfEventOpen o => some o
    | .unknownToken => none

def Opening.slot (o : Opening) (i : Nat) : Option Nat × Nat × Nat := (o.task, i, o.pos)

/-- Two openings of a core, in their order: they have different places, and the first is not in the group of the
second. -/
def Apart (x y : Opening) : Prop :=
  (x.task, x.pos) ≠ (y.task, y.pos) ∧ (y.task = none → x.leader ≠ some y.pos)

/-- An opening has a place, and another leader than itself. -/
def Placed (tables : Nat) (o : Opening) : Prop :=
  o.pos < PERF_MAX_COUNTERS ∧ (∀ k, o.task = some k → k < tables) ∧ o.leader ≠ some o.pos

/-- The file of an opening. -/
def fileOf (s : State) (i : Nat) (e : Opening × Nat) : File PerfEventAttr :=
  ⟨e.2, e.1.attr, e.1.tid, i, e.1.leader.bind (s.perfEventHandle i)⟩

/-- Nothing is open. -/
structure Closed (s : State) : Prop where
  files : s.files = []
  handles : ∀ i pos, s.perfEventHandle i pos = none
  tasks : s.perfEventTaskHandle = []
  call : s.call = none
  workers : ∀ i, s.workers i = {}

structure Inv (inst : PerfInstance) (s : State) : Prop where
  apart : ∀ i, ((s.workers i).opened.map Prod.fst ++ openings (s.workers i).todo).Pairwise Apart
  placed : ∀ i, ∀ o ∈ (s.workers i).opened.map Prod.fst ++ openings (s.workers i).todo,
    i < inst.cores.length ∧ Placed s.perfEventTaskHandle.length o
  files : ∀ i, s.files.filter (·.cpu = i) = (s.workers i).opened.map (fileOf s i)
  handle : ∀ slot fd, s.handle slot = some fd ↔
    ∃ e ∈ (s.workers slot.2.1).opened, e.1.slot slot.2.1 = slot ∧ e.2 = fd
  distinct : (fds s.files).Nodup
  perf : s.core.canUsePerf = false → Closed s

/-! ## Nothing open -/

theorem Closed.handle (closed : Closed s) (slot : Option Nat × Nat × Nat) : s.handle slot = none := by
  obtain ⟨task, i, pos⟩ := slot
  cases task with
  | none => exact closed.handles i pos
  | some k => simp [State.handle, closed.tasks]

theorem Closed.inv (closed : Closed s) : Inv inst s where
  apart := fun i => by rw [closed.workers]; exact List.Pairwise.nil
  placed := fun i o member => by rw [closed.workers] at member; cases member
  files := fun i => by rw [closed.files, closed.workers]; rfl
  handle := fun slot fd => by
    rw [closed.handle, closed.workers]
    simp
  distinct := by rw [closed.files]; exact List.nodup_nil
  perf := fun _ => closed

/-! ## Closing -/

theorem Inv.mem_files (inv : Inv inst s) {f : File PerfEventAttr} (member : f ∈ s.files) :
    ∃ e ∈ (s.workers f.cpu).opened, f = fileOf s f.cpu e := by
  have own : f ∈ s.files.filter (·.cpu = f.cpu) := List.mem_filter.mpr ⟨member, by simp⟩
  rw [inv.files] at own
  obtain ⟨e, opened, same⟩ := List.mem_map.mp own
  exact ⟨e, opened, same.symm⟩

theorem Inv.fileOf_mem (inv : Inv inst s) {e : Opening × Nat} (opened : e ∈ (s.workers i).opened) :
    fileOf s i e ∈ s.files := by
  have listed : fileOf s i e ∈ s.files.filter (·.cpu = i) := by
    rw [inv.files]
    exact List.mem_map_of_mem opened
  exact (List.mem_filter.mp listed).1

theorem Inv.mem_fds (inv : Inv inst s) {fd : Nat} :
    fd ∈ fds s.files ↔ ∃ i, ∃ e ∈ (s.workers i).opened, e.2 = fd := by
  constructor
  · intro member
    obtain ⟨f, there, rfl⟩ := List.mem_map.mp member
    obtain ⟨e, opened, same⟩ := inv.mem_files there
    exact ⟨f.cpu, e, opened, by rw [same]; rfl⟩
  · rintro ⟨i, e, opened, rfl⟩
    exact List.mem_map.mpr ⟨_, inv.fileOf_mem opened, rfl⟩

/-- A handle is in one place only. -/
theorem Inv.slot_injective (inv : Inv inst s) {a b : Option Nat × Nat × Nat} {fd : Nat}
    (here : s.handle a = some fd) (there : s.handle b = some fd) : a = b := by
  obtain ⟨e, opened, slot, same⟩ := (inv.handle a fd).mp here
  obtain ⟨e', opened', slot', same'⟩ := (inv.handle b fd).mp there
  have files : fileOf s a.2.1 e = fileOf s b.2.1 e' :=
    List.inj_on_of_nodup_map inv.distinct (inv.fileOf_mem opened) (inv.fileOf_mem opened')
      (same.trans same'.symm)
  have cores : a.2.1 = b.2.1 := congrArg File.cpu files
  rw [cores] at opened
  -- two entries of one core with the same file are one entry
  have entries : ((s.workers b.2.1).opened.map Prod.snd).Nodup := by
    have sub : (fds (s.files.filter (·.cpu = b.2.1))).Nodup :=
      inv.distinct.sublist (List.filter_sublist.map File.fd)
    rw [inv.files, fds, List.map_map] at sub
    exact sub
  have entry : e = e' := List.inj_on_of_nodup_map entries opened opened' (same.trans same'.symm)
  rw [← slot, ← slot', entry, cores]

theorem Inv.mem_slots (inv : Inv inst s) {e : Opening × Nat} (opened : e ∈ (s.workers i).opened) :
    e.1.slot i ∈ s.slots inst := by
  have listed : e.1 ∈ (s.workers i).opened.map Prod.fst ++ openings (s.workers i).todo :=
    List.mem_append_left _ (List.mem_map_of_mem opened)
  obtain ⟨inside, low, tables, -⟩ := inv.placed i e.1 listed
  rw [State.slots, Opening.slot, List.pair_mem_product, List.pair_mem_product]
  refine ⟨?_, List.mem_range.mpr inside, List.mem_range.mpr low⟩
  cases task : e.1.task with
  | none => exact List.mem_cons_self
  | some k =>
      exact List.mem_cons_of_mem _ (List.mem_map_of_mem (List.mem_range.mpr (tables k task)))

theorem nodup_slots (s : State) : (s.slots inst).Nodup := by
  apply List.Nodup.product
  · rw [List.nodup_cons]
    refine ⟨by simp, List.Nodup.map (Option.some_injective _) List.nodup_range⟩
  · exact List.nodup_range.product List.nodup_range

/-- The handles are the open files, each once. -/
theorem Inv.handles_perm (inv : Inv inst s) : (s.handles inst).Perm (fds s.files) := by
  have nodup : (s.handles inst).Nodup :=
    (nodup_slots s).filterMap fun a b fd here there => inv.slot_injective here there
  rw [List.perm_ext_iff_of_nodup nodup inv.distinct]
  intro fd
  rw [inv.mem_fds, State.handles, List.mem_filterMap]
  constructor
  · rintro ⟨slot, -, here⟩
    obtain ⟨e, opened, -, same⟩ := (inv.handle slot fd).mp here
    exact ⟨slot.2.1, e, opened, same⟩
  · rintro ⟨i, e, opened, same⟩
    exact ⟨e.1.slot i, inv.mem_slots opened, (inv.handle _ fd).mpr ⟨e, opened, rfl, same⟩⟩

/-- `closePerfHandles` leaves nothing open. -/
theorem Inv.closed (inv : Inv inst s) : Closed (s.closePerfHandles inst) := by
  rw [State.closePerfHandles]
  split
  · refine ⟨?_, fun _ _ => rfl, rfl, rfl, fun _ => rfl⟩
    exact closeAll_eq_nil fun fd member => inv.handles_perm.mem_iff.mpr member
  · next unused => exact inv.perf (by simpa using unused)

/-- Whatever becomes of the members of `PCM`, nothing is open. -/
theorem Closed.withCore (closed : Closed s) (core : CoreState) : Closed { s with core := core } :=
  ⟨closed.files, closed.handles, closed.tasks, closed.call, closed.workers⟩

/-! ## Opening -/

@[simp] theorem setHandle_files (h : Option Nat) : (s.setHandle i o h).files = s.files := by
  rw [State.setHandle]
  split <;> rfl

@[simp] theorem setHandle_workers (h : Option Nat) : (s.setHandle i o h).workers = s.workers := by
  rw [State.setHandle]
  split <;> rfl

@[simp] theorem setHandle_core (h : Option Nat) : (s.setHandle i o h).core = s.core := by
  rw [State.setHandle]
  split <;> rfl

@[simp] theorem setHandle_call (h : Option Nat) : (s.setHandle i o h).call = s.call := by
  rw [State.setHandle]
  split <;> rfl

@[simp] theorem setHandle_running (h : Option Nat) : (s.setHandle i o h).running = s.running := by
  rw [State.setHandle]
  split <;> rfl

@[simp] theorem setHandle_perfTopDownPos (h : Option Nat) :
    (s.setHandle i o h).perfTopDownPos = s.perfTopDownPos := by
  rw [State.setHandle]
  split <;> rfl

@[simp] theorem setHandle_tasks (h : Option Nat) :
    (s.setHandle i o h).perfEventTaskHandle.length = s.perfEventTaskHandle.length := by
  rw [State.setHandle]
  split
  · rfl
  · exact List.length_modify _ _ _

theorem handle_setHandle (tables : ∀ k, o.task = some k → k < s.perfEventTaskHandle.length) (h : Option Nat)
    (slot : Option Nat × Nat × Nat) :
    (s.setHandle i o h).handle slot = if slot = o.slot i then h else s.handle slot := by
  have assign : ∀ (cont : Handles) (core pos : Nat),
      Function.update cont i (Function.update (cont i) o.pos h) core pos =
        if core = i ∧ pos = o.pos then h else cont core pos := by
    intro cont core pos
    by_cases same : core = i
    · subst same
      rw [Function.update_self]
      by_cases place : pos = o.pos
      · subst place
        simp
      · simp [place]
    · simp [same]
  obtain ⟨task, core, pos⟩ := slot
  cases own : o.task with
  | none =>
      have table : (s.setHandle i o h).perfEventHandle =
          Function.update s.perfEventHandle i (Function.update (s.perfEventHandle i) o.pos h) := by
        simp [State.setHandle, own]
      have others : (s.setHandle i o h).perfEventTaskHandle = s.perfEventTaskHandle := by
        simp [State.setHandle, own]
      cases task with
      | none => simp [State.handle, table, assign, Opening.slot, own]
      | some k => simp [State.handle, others, Opening.slot, own]
  | some l =>
      have inside := tables l own
      have table : (s.setHandle i o h).perfEventHandle = s.perfEventHandle := by
        simp [State.setHandle, own]
      have others : (s.setHandle i o h).perfEventTaskHandle = s.perfEventTaskHandle.modify l fun cont =>
          Function.update cont i (Function.update (cont i) o.pos h) := by
        simp [State.setHandle, own]
      cases task with
      | none => simp [State.handle, table, Opening.slot, own]
      | some k =>
          by_cases same : k = l
          · subst same
            simp [State.handle, others, Opening.slot, own, List.getElem?_eq_getElem inside, assign]
          · simp [State.handle, others, Opening.slot, own, same, Ne.symm same]

/-- The parts of the state after an opening. -/
theorem perfEventOpen_fields (i : Nat) (o : Opening) (rest : List Action) (answer : Option Nat) (s : State) :
    let t := s.perfEventOpen i o rest answer
    t.core = s.core ∧ t.call = s.call ∧ t.running = s.running ∧
      t.perfEventHandle = (s.setHandle i o answer).perfEventHandle ∧
      t.perfEventTaskHandle = (s.setHandle i o answer).perfEventTaskHandle := by
  simp only [State.perfEventOpen]
  cases answer with
  | none => simp
  | some fd => by_cases zero : fd = 0 <;> simp [zero]

theorem perfEventOpen_none (i : Nat) (o : Opening) (rest : List Action) (s : State) :
    (s.perfEventOpen i o rest none).files = s.files ∧
    (s.perfEventOpen i o rest none).workers =
      Function.update s.workers i { s.workers i with todo := rest, failed := true } := by
  simp [State.perfEventOpen]

theorem perfEventOpen_some (i : Nat) (o : Opening) (rest : List Action) (fd : Nat) (s : State) :
    (s.perfEventOpen i o rest (some fd)).files =
      s.files ++ [⟨fd, o.attr, o.tid, i, o.leader.bind (s.perfEventHandle i)⟩] ∧
    (s.perfEventOpen i o rest (some fd)).workers =
      Function.update s.workers i
        { opened := (s.workers i).opened ++ [(o, fd)], todo := rest, failed := fd = 0 } := by
  simp only [State.perfEventOpen]
  by_cases zero : fd = 0 <;> simp [zero]

/-- An opening changes `perfTopDownPos` at its own position only. -/
theorem perfTopDownPos_perfEventOpen (i : Nat) (o : Opening) (rest : List Action) (answer : Option Nat)
    (s : State) (p : Nat) :
    (s.perfEventOpen i o rest answer).perfTopDownPos p = s.perfTopDownPos p ∨
      p = o.pos ∧ o.readPos = some ((s.perfEventOpen i o rest answer).perfTopDownPos p) := by
  cases answer with
  | none => simp [State.perfEventOpen]
  | some fd =>
      by_cases zero : fd = 0
      · simp [State.perfEventOpen, zero]
      · cases place : o.readPos with
        | none => simp [State.perfEventOpen, zero, place]
        | some readPos =>
            by_cases same : p = o.pos
            · simp [State.perfEventOpen, zero, place, same]
            · simp [State.perfEventOpen, zero, place, same]

theorem handle_perfEventOpen (tables : ∀ k, o.task = some k → k < s.perfEventTaskHandle.length)
    (rest : List Action) (answer : Option Nat) (slot : Option Nat × Nat × Nat) :
    (s.perfEventOpen i o rest answer).handle slot = if slot = o.slot i then answer else s.handle slot := by
  obtain ⟨-, -, -, table, others⟩ := perfEventOpen_fields i o rest answer s
  rw [← handle_setHandle tables answer slot, State.handle, State.handle, table, others]

theorem fileOf_congr {t : State} {core : Nat} {e : Opening × Nat}
    (same : ∀ p, e.1.leader = some p → t.perfEventHandle core p = s.perfEventHandle core p) :
    fileOf t core e = fileOf s core e := by
  cases leader : e.1.leader with
  | none => simp [fileOf, leader]
  | some p => simp [fileOf, leader, same p leader]

theorem openings_cons (o : Opening) (rest : List Action) :
    openings (.perfEventOpen o :: rest) = o :: openings rest := rfl

section Opening

variable {rest : List Action} {answer : Option Nat} (inv : Inv inst s)
  (next : (s.workers i).todo = .perfEventOpen o :: rest)

include inv next

/-- The place of the next opening, and what of the worker has been before it. -/
theorem Inv.placed_next : i < inst.cores.length ∧ Placed s.perfEventTaskHandle.length o := by
  apply inv.placed i o
  rw [next, openings_cons]
  exact List.mem_append_right _ List.mem_cons_self

theorem Inv.apart_next {e : Opening × Nat} (opened : e ∈ (s.workers i).opened) : Apart e.1 o := by
  have apart := inv.apart i
  rw [next, openings_cons, List.pairwise_append] at apart
  exact apart.2.2 e.1 (List.mem_map_of_mem opened) o List.mem_cons_self

theorem Inv.free_next : s.handle (o.slot i) = none := by
  cases here : s.handle (o.slot i) with
  | none => rfl
  | some fd =>
      obtain ⟨e, opened, slot, -⟩ := (inv.handle _ fd).mp here
      have same : (e.1.task, e.1.pos) = (o.task, o.pos) := by
        simp only [Opening.slot, Prod.mk.injEq] at slot
        rw [slot.1, slot.2.2]
      exact absurd same (inv.apart_next next opened).1

/-- The kernel refuses: only the worker has changed. -/
theorem Inv.refused : Inv inst (s.perfEventOpen i o rest none) := by
  obtain ⟨inside, low, tables, -⟩ := inv.placed_next next
  obtain ⟨core, call, running, -, others⟩ := perfEventOpen_fields i o rest none s
  obtain ⟨files, workers⟩ := perfEventOpen_none i o rest s
  have handles : ∀ slot, (s.perfEventOpen i o rest none).handle slot = s.handle slot := by
    intro slot
    rw [handle_perfEventOpen tables]
    split
    · next same => rw [same, inv.free_next next]
    · rfl
  have opened : ∀ j, ((s.perfEventOpen i o rest none).workers j).opened = (s.workers j).opened := by
    intro j
    rw [workers]
    by_cases same : j = i
    · rw [same, Function.update_self]
    · rw [Function.update_of_ne same]
  have left : ∀ j, ((s.workers j).opened.map Prod.fst ++
      openings ((s.perfEventOpen i o rest none).workers j).todo).Sublist
        ((s.workers j).opened.map Prod.fst ++ openings (s.workers j).todo) := by
    intro j
    apply List.Sublist.append_left
    rw [workers]
    by_cases same : j = i
    · rw [same, Function.update_self, next, openings_cons]
      exact List.sublist_cons_self _ _
    · rw [Function.update_of_ne same]
  refine ⟨?_, ?_, ?_, ?_, ?_, ?_⟩
  · intro j
    rw [opened]
    exact (inv.apart j).sublist (left j)
  · intro j x member
    rw [opened] at member
    rw [others, setHandle_tasks]
    exact inv.placed j x ((left j).subset member)
  · intro j
    rw [files, opened, inv.files]
    apply List.map_congr_left
    intro e _
    exact (fileOf_congr fun p _ => handles (none, j, p)).symm
  · intro slot fd
    rw [handles, opened]
    exact inv.handle slot fd
  · rw [files]
    exact inv.distinct
  · intro unused
    rw [core] at unused
    have none_left := (inv.perf unused).workers i
    rw [none_left] at next
    cases next

/-- The kernel opens a new file. -/
theorem Inv.opened {fd : Nat} (fresh : fd ∉ fds s.files) : Inv inst (s.perfEventOpen i o rest (some fd)) := by
  obtain ⟨inside, low, tables, own⟩ := inv.placed_next next
  obtain ⟨core, call, running, -, others⟩ := perfEventOpen_fields i o rest (some fd) s
  obtain ⟨files, workers⟩ := perfEventOpen_some i o rest fd s
  have handles := fun slot => handle_perfEventOpen (i := i) tables rest (some fd) slot
  have here : (s.perfEventOpen i o rest (some fd)).workers i =
      { opened := (s.workers i).opened ++ [(o, fd)], todo := rest, failed := fd = 0 } := by
    rw [workers, Function.update_self]
  have there : ∀ j, j ≠ i → (s.perfEventOpen i o rest (some fd)).workers j = s.workers j := by
    intro j other
    rw [workers, Function.update_of_ne other]
  have list : ∀ j, ((s.perfEventOpen i o rest (some fd)).workers j).opened.map Prod.fst ++
      openings ((s.perfEventOpen i o rest (some fd)).workers j).todo =
        (s.workers j).opened.map Prod.fst ++ openings (s.workers j).todo := by
    intro j
    by_cases same : j = i
    · subst same
      rw [here, next, openings_cons]
      simp
    · rw [there j same]
  -- no file changes its leader: the new handle leads none of them
  have kept : ∀ j, ∀ e ∈ (s.workers j).opened,
      fileOf (s.perfEventOpen i o rest (some fd)) j e = fileOf s j e := by
    intro j e member
    apply fileOf_congr
    intro p leader
    have same := handles (none, j, p)
    rw [if_neg] at same
    · exact same
    · intro slot
      simp only [Opening.slot, Prod.mk.injEq] at slot
      obtain ⟨task, rfl, rfl⟩ := slot
      exact (inv.apart_next next member).2 task.symm leader
  refine ⟨?_, ?_, ?_, ?_, ?_, ?_⟩
  · intro j
    rw [list]
    exact inv.apart j
  · intro j x member
    rw [list] at member
    rw [others, setHandle_tasks]
    exact inv.placed j x member
  · intro j
    rw [files, List.filter_append, inv.files]
    by_cases same : j = i
    · subst same
      have leader : o.leader.bind ((s.perfEventOpen j o rest (some fd)).perfEventHandle j) =
          o.leader.bind (s.perfEventHandle j) := by
        cases group : o.leader with
        | none => rfl
        | some p =>
            have same := handles (none, j, p)
            rw [if_neg] at same
            · exact same
            · intro slot
              simp only [Opening.slot, Prod.mk.injEq] at slot
              exact own (by rw [group, slot.2.2])
      rw [here, List.map_append, List.map_congr_left (kept j)]
      simp [fileOf, leader]
    · rw [there j same, List.map_congr_left (kept j)]
      simp [Ne.symm same]
  · intro slot x
    rw [handles]
    split
    · next same =>
        subst same
        have core_ : (o.slot i).2.1 = i := rfl
        rw [core_, here]
        constructor
        · intro answer
          exact ⟨(o, fd), List.mem_append_right _ List.mem_cons_self, rfl, Option.some.inj answer⟩
        · rintro ⟨e, member, slot, rfl⟩
          rcases List.mem_append.mp member with earlier | new
          · have same : (e.1.task, e.1.pos) = (o.task, o.pos) := by
              simp only [Opening.slot, Prod.mk.injEq] at slot
              rw [slot.1, slot.2.2]
            exact absurd same (inv.apart_next next earlier).1
          · rw [List.mem_singleton.mp new]
    · next other =>
        rw [inv.handle]
        by_cases same : slot.2.1 = i
        · rw [same, here]
          constructor
          · rintro ⟨e, member, found⟩
            exact ⟨e, List.mem_append_left _ member, found⟩
          · rintro ⟨e, member, found⟩
            rcases List.mem_append.mp member with earlier | new
            · exact ⟨e, earlier, found⟩
            · rw [List.mem_singleton.mp new] at found
              exact absurd found.1.symm other
        · rw [there _ same]
  · rw [files, fds, List.map_append]
    apply List.Nodup.append inv.distinct (List.nodup_singleton _)
    intro x member new
    obtain rfl := List.mem_singleton.mp new
    exact fresh member
  · intro unused
    rw [core] at unused
    have none_left := (inv.perf unused).workers i
    rw [none_left] at next
    cases next

end Opening

/-! ## The lists of actions -/

section Actions

variable (call : PerfCall) (core : CoreState) (info : CoreInfo)

theorem openings_append (before after : List Action) :
    openings (before ++ after) = openings before ++ openings after :=
  List.filterMap_append

theorem openings_flatMap {β : Type*} (l : List β) (f : β → List Action) :
    openings (l.flatMap f) = l.flatMap fun x => openings (f x) :=
  List.filterMap_flatMap

/-- An opening for the task at a place. -/
def Opening.forTask (o : Opening) (tid : Int × Nat) : Opening :=
  { o with
    attr := { o.attr with inherit := true, excludeKernel := true, excludeHv := true, group := false }
    leader := none, tid := tid.1, task := some tid.2 }

theorem openings_programPerfEvent (o : Opening) :
    openings (programPerfEvent call o) =
      if call.tids = [] then [o] else call.tids.zipIdx.map o.forTask := by
  rw [programPerfEvent]
  split
  · rfl
  · rw [openings, List.filterMap_map, ← List.filterMap_eq_map]
    rfl

/-- The top-down events whose description can be read. -/
def readableTopDown (inst : PerfInstance) (core : CoreState) : List Opening :=
  (topDownOpenings inst core).filterMap id

theorem coreActions_eq :
    coreActions inst call core i info =
      (counterEvents inst call core i info).flatMap (programPerfEvent call) ++
        if inst.usesTopDown call then (topDownOpenings inst core).flatMap (eventActions call) else [] := by
  rw [coreActions, coreEvents, List.flatMap_append, List.flatMap_map]
  congr 1
  split <;> rfl

/-- What the worker of a core opens, one task after another for each event in a call for a process. -/
theorem openings_coreActions :
    openings (coreActions inst call core i info) =
      if call.tids = [] then
        counterEvents inst call core i info ++ if inst.usesTopDown call then readableTopDown inst core else []
      else
        (counterEvents inst call core i info).flatMap fun o => call.tids.zipIdx.map o.forTask := by
  have events : openings ((counterEvents inst call core i info).flatMap (programPerfEvent call)) =
      (counterEvents inst call core i info).flatMap fun o =>
        if call.tids = [] then [o] else call.tids.zipIdx.map o.forTask := by
    rw [openings_flatMap]
    simp only [openings_programPerfEvent]
  rw [coreActions_eq, openings_append, events]
  by_cases system : call.tids = []
  · simp only [system, if_true, List.flatMap_singleton']
    congr 1
    split
    · rw [openings_flatMap, readableTopDown, List.filterMap_eq_flatMap_toList]
      congr 1
      funext o
      cases o with
      | none => rfl
      | some o => rw [eventActions, openings_programPerfEvent, if_pos system]; rfl
    · rfl
  · have unused : inst.usesTopDown call = false := by simp [PerfInstance.usesTopDown, system]
    simp [system, unused, openings]

variable (inst i) in
/-- The openings of the counters behind the first one. -/
theorem counterEvents_tail :
    ∃ rest, counterEvents inst call core i info =
        { pos := 0, attr := fixedEvent (initFixedCtrl call.request) 1 0 } :: rest ∧
      rest.length = 2 + core.coreGenCounterNumUsed ∧
      (∀ o ∈ rest, o.leader = some 0 ∧ o.task = none ∧ 1 ≤ o.pos ∧ o.pos < 3 + core.coreGenCounterNumUsed) ∧
      rest.Pairwise fun x y => x.pos < y.pos := by
  refine ⟨_, rfl, ?_, ?_, ?_⟩
  · simp only [List.length_cons, List.length_map, List.length_range]
    omega
  · intro o member
    rcases List.mem_cons.mp member with rfl | member
    · exact ⟨rfl, rfl, le_rfl, by show 1 < _; omega⟩
    · rcases List.mem_cons.mp member with rfl | member
      · exact ⟨rfl, rfl, by show 1 ≤ 2; omega, by show 2 < _; omega⟩
      · obtain ⟨j, inside, rfl⟩ := List.mem_map.mp member
        have below := List.mem_range.mp inside
        refine ⟨rfl, rfl, ?_, ?_⟩
        · show 1 ≤ 3 + j
          omega
        · show 3 + j < _
          omega
  · have general : ((List.range core.coreGenCounterNumUsed).map fun j =>
        ({ pos := PERF_GEN_EVENT_0_POS + j, attr := genericEvent inst call core i info j,
           leader := some 0 } : Opening)).Pairwise fun x y => x.pos < y.pos := by
      rw [List.pairwise_map]
      exact List.pairwise_lt_range.imp fun less => Nat.add_lt_add_left less _
    have behind : ∀ o ∈ (List.range core.coreGenCounterNumUsed).map fun j =>
        ({ pos := PERF_GEN_EVENT_0_POS + j, attr := genericEvent inst call core i info j,
           leader := some 0 } : Opening), 3 ≤ o.pos := by
      intro o member
      obtain ⟨j, -, rfl⟩ := List.mem_map.mp member
      exact Nat.le_add_right 3 j
    rw [List.pairwise_cons, List.pairwise_cons]
    refine ⟨?_, fun o member => ?_, general⟩
    · intro o member
      rcases List.mem_cons.mp member with rfl | member
      · exact Nat.lt_succ_self 1
      · have low := behind o member
        show 1 < o.pos
        omega
    · have low := behind o member
      show 2 < o.pos
      omega

theorem length_counterEvents :
    (counterEvents inst call core i info).length = 3 + core.coreGenCounterNumUsed := by
  obtain ⟨rest, whole, length, -⟩ := counterEvents_tail inst i call core info
  rw [whole, List.length_cons, length]
  omega

theorem mem_counterEvents {o : Opening} (member : o ∈ counterEvents inst call core i info) :
    o.task = none ∧ o.pos < 3 + core.coreGenCounterNumUsed ∧
      ((o.pos = 0 ∧ o.leader = none) ∨ (1 ≤ o.pos ∧ o.leader = some 0)) := by
  obtain ⟨rest, whole, -, all, -⟩ := counterEvents_tail inst i call core info
  rw [whole] at member
  rcases List.mem_cons.mp member with rfl | member
  · exact ⟨rfl, by show 0 < _; omega, .inl ⟨rfl, rfl⟩⟩
  · obtain ⟨leader, task, low, high⟩ := all o member
    exact ⟨task, high, .inr ⟨low, leader⟩⟩

theorem counterEvents_apart : (counterEvents inst call core i info).Pairwise Apart := by
  obtain ⟨rest, whole, -, all, order⟩ := counterEvents_tail inst i call core info
  rw [whole, List.pairwise_cons]
  constructor
  · intro o member
    obtain ⟨-, -, low, -⟩ := all o member
    refine ⟨fun same => ?_, fun _ leads => by cases leads⟩
    simp only [Prod.mk.injEq] at same
    omega
  · apply order.imp_of_mem
    intro x y here there less
    obtain ⟨-, -, low, -⟩ := all y there
    refine ⟨fun same => ?_, fun _ leads => ?_⟩
    · simp only [Prod.mk.injEq] at same
      omega
    · rw [(all x here).1, Option.some.injEq] at leads
      omega

theorem topDownEvents_apart :
    inst.topDownEvents.zipIdx.Pairwise fun a b => a.1 ≠ b.1 ∧ b.1 ≠ PERF_TOPDOWN_SLOTS_POS ∧ b.2 ≠ 0 := by
  rw [PerfInstance.topDownEvents]
  cases inst.hwTMAL2Supported <;> decide

theorem mem_topDownEvents {event : Nat × Nat} (member : event ∈ inst.topDownEvents.zipIdx) :
    11 ≤ event.1 ∧ event.1 < 20 ∧ (event.2 ≠ 0 → event.1 ≠ 11) := by
  have all : ∀ event ∈ inst.topDownEvents.zipIdx, 11 ≤ event.1 ∧ event.1 < 20 ∧
      (event.2 ≠ 0 → event.1 ≠ 11) := by
    rw [PerfInstance.topDownEvents]
    cases inst.hwTMAL2Supported <;> decide
  exact all event member

/-- A top-down event at its place in the list. -/
theorem mem_readableTopDown {o : Opening} (member : o ∈ readableTopDown inst core) :
    ∃ event ∈ inst.topDownEvents.zipIdx, o.pos = event.1 ∧ o.task = none ∧
      o.leader = (if event.2 = 0 then none else some PERF_TOPDOWN_SLOTS_POS) ∧
      o.readPos = some (3 + core.coreGenCounterNumUsed + event.2) := by
  rw [readableTopDown, List.mem_filterMap] at member
  obtain ⟨found, listed, same⟩ := member
  rw [topDownOpenings, List.mem_map] at listed
  obtain ⟨event, there, rfl⟩ := listed
  simp only [id, Option.map_eq_some_iff] at same
  obtain ⟨fields, -, rfl⟩ := same
  exact ⟨event, there, rfl, rfl, rfl, rfl⟩

theorem readableTopDown_apart : (readableTopDown inst core).Pairwise Apart := by
  rw [readableTopDown, topDownOpenings, List.filterMap_map, List.pairwise_filterMap]
  apply topDownEvents_apart.imp
  intro a b distinct x here y there
  simp only [Function.comp_apply, id, Option.map_eq_some_iff] at here there
  obtain ⟨fields, -, rfl⟩ := here
  obtain ⟨fields', -, rfl⟩ := there
  refine ⟨fun same => distinct.1 (by simpa using same), fun _ leads => ?_⟩
  simp only at leads
  split at leads
  · cases leads
  · exact distinct.2.1 (Option.some.inj leads).symm

/-- With at most eight general counters no two openings of a core have the same place. -/
theorem coreActions_apart (small : core.coreGenCounterNumUsed ≤ 8) :
    (openings (coreActions inst call core i info)).Pairwise Apart := by
  rw [openings_coreActions]
  split
  · rw [List.pairwise_append]
    refine ⟨counterEvents_apart call core info, ?_, ?_⟩
    · split
      · exact readableTopDown_apart core
      · exact List.Pairwise.nil
    · intro x here y there
      split at there
      · obtain ⟨event, listed, pos, -⟩ := mem_readableTopDown core there
        have low := (mem_topDownEvents listed).1
        obtain ⟨-, high, leader⟩ := mem_counterEvents call core info here
        refine ⟨fun same => ?_, fun _ leads => ?_⟩
        · simp only [Prod.mk.injEq] at same
          omega
        · rcases leader with ⟨-, none_⟩ | ⟨-, first⟩
          · rw [none_] at leads
            cases leads
          · rw [first, Option.some.injEq] at leads
            omega
      · cases there
  · rw [List.pairwise_flatMap]
    constructor
    · intro o member
      rw [List.pairwise_map]
      have distinct : call.tids.zipIdx.Pairwise fun a b => a.2 ≠ b.2 := by
        rw [← List.pairwise_map (f := Prod.snd), List.zipIdx_map_snd]
        exact List.nodup_range'
      apply distinct.imp
      intro a b other
      refine ⟨fun same => other ?_, fun _ leads => by cases leads⟩
      simpa [Opening.forTask] using same
    · apply (counterEvents_apart call core info).imp_of_mem
      intro x y here there apart a first b second
      obtain ⟨tid, -, rfl⟩ := List.mem_map.mp first
      obtain ⟨tid', -, rfl⟩ := List.mem_map.mp second
      have tasks := (mem_counterEvents call core info here).1.trans
        (mem_counterEvents call core info there).1.symm
      refine ⟨fun same => apart.1 ?_, fun _ leads => by cases leads⟩
      simp only [Opening.forTask, Prod.mk.injEq] at same
      rw [tasks, same.2]

theorem coreActions_placed (small : core.coreGenCounterNumUsed ≤ 8) {o : Opening}
    (member : o ∈ openings (coreActions inst call core i info)) : Placed call.tids.length o := by
  rw [openings_coreActions] at member
  split at member
  · rcases List.mem_append.mp member with counter | topDown
    · obtain ⟨task, high, leader⟩ := mem_counterEvents call core info counter
      refine ⟨by show _ < 20; omega, fun k own => ?_, fun own => ?_⟩
      · rw [task] at own
        cases own
      · rcases leader with ⟨-, none_⟩ | ⟨low, first⟩
        · rw [none_] at own
          cases own
        · rw [first, Option.some.injEq] at own
          omega
    · split at topDown
      · obtain ⟨event, listed, pos, task, leader, -⟩ := mem_readableTopDown core topDown
        obtain ⟨-, high, other⟩ := mem_topDownEvents listed
        refine ⟨by rw [pos]; exact high, fun k own => ?_, fun own => ?_⟩
        · rw [task] at own
          cases own
        · rw [leader, pos] at own
          split at own
          · cases own
          · next behind => exact other behind (Option.some.inj own).symm
      · cases topDown
  · obtain ⟨event, listed, inside⟩ := List.mem_flatMap.mp member
    obtain ⟨tid, there, rfl⟩ := List.mem_map.mp inside
    obtain ⟨-, high, -⟩ := mem_counterEvents call core info listed
    refine ⟨by show event.pos < 20; omega, fun k own => ?_, fun own => by cases own⟩
    obtain rfl := Option.some.inj own
    obtain ⟨k, below, rfl⟩ := List.mem_iff_getElem.mp there
    simp only [List.getElem_zipIdx, Nat.zero_add]
    simpa using below

end Actions

/-! ## Runs -/

theorem openings_plan (inst : PerfInstance) (call : PerfCall) (core : CoreState) (i : Nat) :
    openings (plan inst call core i) = [] ∨ i < inst.cores.length ∧ ∃ info, inst.cores[i]? = some info ∧
      info.online ∧ plan inst call core i = coreActions inst call core i info := by
  cases here : inst.cores[i]? with
  | none => exact .inl (by simp [plan, here, openings])
  | some info =>
      by_cases online : info.online
      · exact .inr ⟨(List.getElem?_eq_some_iff.mp here).1, info, rfl, online, by simp [plan, here, online]⟩
      · exact .inl (by simp [plan, here, online, openings])

/-- The workers start where nothing is open. -/
theorem Closed.startWorkers (closed : Closed s) {core : CoreState} (usable : core.canUsePerf = true)
    (small : core.coreGenCounterNumUsed ≤ 8) (call : PerfCall) :
    Inv inst { s with
      core := core
      perfEventTaskHandle := List.replicate call.tids.length fun _ _ => none
      call := some call
      running := true
      workers := fun i => { todo := plan inst call core i } } where
  apart := by
    intro i
    show (openings (plan inst call core i)).Pairwise Apart
    rcases openings_plan inst call core i with none_ | ⟨-, info, -, -, own⟩
    · rw [none_]
      exact List.Pairwise.nil
    · rw [own]
      exact coreActions_apart call core info small
  placed := by
    intro i o member
    have listed : o ∈ openings (plan inst call core i) := member
    rcases openings_plan inst call core i with none_ | ⟨inside, info, -, -, own⟩
    · rw [none_] at listed
      cases listed
    · rw [own] at listed
      refine ⟨inside, ?_⟩
      rw [List.length_replicate]
      exact coreActions_placed call core info small listed
  files := by
    intro i
    rw [closed.files]
    rfl
  handle := by
    rintro ⟨task, i, pos⟩ fd
    cases task with
    | none => simp [State.handle, closed.handles]
    | some k =>
        simp only [State.handle, List.getElem?_replicate]
        split <;> simp
  distinct := by
    rw [closed.files]
    exact List.nodup_nil
  perf := fun unused => by
    rw [usable] at unused
    cases unused

theorem Inv.withCore (inv : Inv inst s) {core : CoreState} (same : core.canUsePerf = s.core.canUsePerf) :
    Inv inst { s with core := core } where
  apart := inv.apart
  placed := inv.placed
  files := inv.files
  handle := inv.handle
  distinct := inv.distinct
  perf := fun unused => (inv.perf (same.symm.trans unused)).withCore core

/-- What a call leaves before its workers start: the state with another core part, nothing open where the call has got
past its first check, or the workers at their beginning. -/
theorem program_cases (s : State) (call : PerfCall) :
    (s.program inst call = { s with core := s.core.disableNMIWatchdog inst.toInstance }) ∨
    (∃ core, s.program inst call = { s.closePerfHandles inst with core := core }) ∨
    ∃ core, core.canUsePerf = true ∧ core.coreGenCounterNumUsed ≤ inst.coreGenCounterNumMax ∧
      s.program inst call = { s.closePerfHandles inst with
        core := core
        perfEventTaskHandle := List.replicate call.tids.length fun _ _ => none
        call := some call
        running := true
        workers := fun i => { todo := plan inst call core i } } := by
  rw [State.program]
  split
  · exact .inl rfl
  · simp only
    split
    · exact .inr (.inl ⟨_, rfl⟩)
    · split
      · exact .inr (.inl ⟨_, rfl⟩)
      · split
        · exact .inr (.inl ⟨_, rfl⟩)
        · next core selected =>
            split
            · next accepted =>
                split
                · next usable =>
                    refine .inr (.inr ⟨core, usable, ?_, rfl⟩)
                    simp only [CoreState.accepts, Bool.and_eq_true, decide_eq_true_eq] at accepted
                    exact accepted.1.1.1.1
                · exact .inr (.inl ⟨_, rfl⟩)
            · exact .inr (.inl ⟨_, rfl⟩)

theorem disableNMIWatchdog_canUsePerf (core : CoreState) :
    (core.disableNMIWatchdog inst.toInstance).canUsePerf = core.canUsePerf := by
  rw [CoreState.disableNMIWatchdog]
  split <;> rfl

/-- What the end of a call leaves of the members that the events depend on. -/
structure SameEvents (core core' : CoreState) : Prop where
  canUsePerf : core'.canUsePerf = core.canUsePerf
  coreEventDesc : core'.coreEventDesc = core.coreEventDesc
  hybridAtomEventDesc : core'.hybridAtomEventDesc = core.hybridAtomEventDesc
  coreGenCounterNumUsed : core'.coreGenCounterNumUsed = core.coreGenCounterNumUsed

theorem SameEvents.plan {core core' : CoreState} (same : SameEvents core core') (call : PerfCall) (i : Nat) :
    plan inst call core' i = plan inst call core i := by
  have registers : eventSelectReg inst call core' = eventSelectReg inst call core := by
    funext k info j
    simp only [eventSelectReg, same.coreEventDesc, same.hybridAtomEventDesc]
  simp only [Perf.plan, coreActions, coreEvents, counterEvents, genericEvent, topDownOpenings, registers,
    same.coreGenCounterNumUsed]

theorem sameEvents_disableNMIWatchdog (core : CoreState) :
    SameEvents core (core.disableNMIWatchdog inst.toInstance) := by
  rw [CoreState.disableNMIWatchdog]
  split
  · exact ⟨rfl, rfl, rfl, rfl⟩
  · exact ⟨rfl, rfl, rfl, rfl⟩

theorem sameEvents_programCores (inst : PerfInstance) (call : Call) (core : CoreState) :
    SameEvents core (core.programCores inst.toInstance call).2 := by
  have one : ∀ (core : CoreState) (entry : Nat × CoreInfo),
      SameEvents core (core.programCoreCounters inst.toInstance call entry.1 entry.2) := by
    intro core entry
    rw [CoreState.programCoreCounters]
    split
    · exact ⟨rfl, rfl, rfl, rfl⟩
    · split
      · exact ⟨rfl, rfl, rfl, rfl⟩
      · exact ⟨rfl, rfl, rfl, rfl⟩
  have all : ∀ (entries : List (Nat × CoreInfo)) (core : CoreState), SameEvents core
      (entries.foldl (fun s entry => s.programCoreCounters inst.toInstance call entry.1 entry.2) core) := by
    intro entries
    induction entries with
    | nil => exact fun core => ⟨rfl, rfl, rfl, rfl⟩
    | cons entry entries ih =>
        intro core
        have first := one core entry
        have rest := ih (core.programCoreCounters inst.toInstance call entry.1 entry.2)
        exact ⟨rest.canUsePerf.trans first.canUsePerf, rest.coreEventDesc.trans first.coreEventDesc,
          rest.hybridAtomEventDesc.trans first.hybridAtomEventDesc,
          rest.coreGenCounterNumUsed.trans first.coreGenCounterNumUsed⟩
  have folded := all inst.onlineCores core
  simp only [CoreState.programCores]
  split
  · exact folded
  · exact ⟨folded.canUsePerf, folded.coreEventDesc, folded.hybridAtomEventDesc, folded.coreGenCounterNumUsed⟩

/-- Every step keeps the invariant. -/
theorem Inv.step (small : inst.coreGenCounterNumMax ≤ 8) (inv : Inv inst s) {t : State} (step : Step inst s t) :
    Inv inst t := by
  cases step with
  | @program call idle =>
      rcases program_cases s call with same | ⟨core, same⟩ | ⟨core, usable, used, same⟩
      · rw [same]
        exact inv.withCore (disableNMIWatchdog_canUsePerf s.core)
      · rw [same]
        exact (inv.closed.withCore core).inv
      · rw [same]
        exact inv.closed.startWorkers usable (used.trans small) call
  | @«open» i o rest answer running working next fresh =>
      cases answer with
      | none => exact inv.refused next
      | some fd => exact inv.opened next (fresh fd rfl)
  | @token i rest running working next =>
      have opened : ∀ j, (Function.update s.workers i { s.workers i with failed := true } j).opened =
          (s.workers j).opened := by
        intro j
        by_cases same : j = i
        · rw [same, Function.update_self]
        · rw [Function.update_of_ne same]
      have todo : ∀ j, (Function.update s.workers i { s.workers i with failed := true } j).todo =
          (s.workers j).todo := by
        intro j
        by_cases same : j = i
        · rw [same, Function.update_self]
        · rw [Function.update_of_ne same]
      refine ⟨?_, ?_, ?_, ?_, inv.distinct, ?_⟩
      · intro j
        rw [opened, todo]
        exact inv.apart j
      · intro j
        rw [opened, todo]
        exact inv.placed j
      · intro j
        rw [opened]
        exact inv.files j
      · intro slot fd
        rw [opened]
        exact inv.handle slot fd
      · intro unused
        have idle := (inv.perf unused).workers i
        rw [idle] at next
        cases next
  | @finish call running here done =>
      have kept := inv.withCore (sameEvents_programCores inst
        { call.toCall with perfOpens := fun i => !(s.workers i).failed } s.core).canUsePerf
      exact ⟨kept.apart, kept.placed, kept.files, kept.handle, kept.distinct, fun unused =>
        ⟨(kept.perf unused).files, (kept.perf unused).handles, (kept.perf unused).tasks,
          (kept.perf unused).call, (kept.perf unused).workers⟩⟩
  | cleanup idle => exact (inv.closed.withCore _).inv

theorem inv_start (core : CoreState) : Inv inst (start core) :=
  Closed.inv ⟨rfl, fun _ _ => rfl, rfl, rfl, fun _ => rfl⟩

theorem inv_reachable (small : inst.coreGenCounterNumMax ≤ 8) {core : CoreState}
    (reached : Reachable (Step inst) (start core) s) : Inv inst s :=
  reached.invariant (inv_start core) fun inv step => inv.step small step

end Pcm.Perf
