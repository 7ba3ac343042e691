import Pcm.Topology
import Mathlib.Data.List.Perm.Lattice
import Mathlib.Data.List.Nodup

/-!
# Building the topology tree

`SystemRoot::addThread` puts a hardware thread into a core of its socket, or among the offlined
threads (`topology.h:423-470`). A core is found through its first thread, by a chain of comparisons
of the ids of two entries (`topologyentry.h:81-98`), and it takes no thread whose id is not below
the number of threads per core (`topology.h:176-206`).
-/

namespace Pcm.Topology

namespace TopologyEntry

def isSameSocket (a te : TopologyEntry) : Bool := a.socket_id == te.socket_id

def isSameDieGroup (a te : TopologyEntry) : Bool :=
  a.die_grp_id == te.die_grp_id && a.isSameSocket te

def isSameDie (a te : TopologyEntry) : Bool := a.die_id == te.die_id && a.isSameDieGroup te

def isSameTile (a te : TopologyEntry) : Bool := a.tile_id == te.tile_id && a.isSameDie te

def isSameModule (a te : TopologyEntry) : Bool := a.module_id == te.module_id && a.isSameTile te

def isSameCore (a te : TopologyEntry) : Bool := a.core_id == te.core_id && a.isSameModule te

/-- The ids that the chain looks at, from the socket down. -/
def coreKey (te : TopologyEntry) : List Int :=
  [te.socket_id, te.die_grp_id, te.die_id, te.tile_id, te.module_id, te.core_id]

theorem isSameCore_iff {a b : TopologyEntry} : a.isSameCore b = true ↔ a.coreKey = b.coreKey := by
  simp only [isSameCore, isSameModule, isSameTile, isSameDie, isSameDieGroup, isSameSocket, coreKey,
    Bool.and_eq_true, beq_iff_eq, List.cons.injEq, and_true]
  tauto

end TopologyEntry

/-! ## The tree -/

/-- The check of `Core::addHyperThreadInfo`. -/
def checkThread (maxThreads : Int) (te : TopologyEntry) : Except String Unit :=
  if maxThreads ≤ te.thread_id then
    .error ("ERROR: Core: thread_id " ++ toString te.thread_id ++ " cannot be larger than " ++
      toString maxThreads ++ ".\n")
  else .ok ()

namespace Core

/-- A thread whose OS id the core has already is not added again. -/
def push (t : HyperThread) (c : Core) : Core :=
  if c.threads.any (·.osID == t.osID) then c else { c with others := c.others ++ [t] }

/-- `Core::addHyperThreadInfo` (`topology.h:176-194`). -/
def addHyperThreadInfo (maxThreads : Int) (t : HyperThread) (c : Core) : Except String Core := do
  checkThread maxThreads t.te
  return c.push t

/-- A new core, to which its first thread is added. -/
def new (maxThreads : Int) (t : HyperThread) : Except String Core := do
  checkThread maxThreads t.te
  return ⟨t, []⟩

def key (c : Core) : List Int := c.front.te.coreKey

def findThreadByOSID (osID : Int) (c : Core) : Option HyperThread :=
  c.threads.find? (·.osID == osID)

end Core

/-- The search of `Socket::findCoreByTopologyEntry`, and what `addThread` does with the core found
or with a new one at the end. -/
def addToCores (maxThreads : Int) (t : HyperThread) : List Core → Except String (List Core)
  | [] => do
      let c ← Core.new maxThreads t
      return [c]
  | c :: rest =>
      if c.front.te.isSameCore t.te then do
        let c ← c.addHyperThreadInfo maxThreads t
        return c :: rest
      else do
        let rest ← addToCores maxThreads t rest
        return c :: rest

namespace Socket

def threads (s : Socket) : List HyperThread := s.cores.flatMap Core.threads

def findThreadByOSID (osID : Int) (s : Socket) : Option HyperThread :=
  s.cores.findSome? (Core.findThreadByOSID osID)

end Socket

/-- The loop of `addThread` over the sockets; `none` when no socket has the id of the entry. -/
def addToSockets (maxThreads : Int) (t : HyperThread) :
    List Socket → Except String (Option (List Socket))
  | [] => return none
  | s :: rest =>
      if s.socketID = t.te.socket_id then do
        let cores ← addToCores maxThreads t s.cores
        return some ({ s with cores := cores } :: rest)
      else do
        let rest ← addToSockets maxThreads t rest
        return rest.map (s :: ·)

namespace SystemRoot

def addSocket (uncore : UncoreKind) (root : SystemRoot) (logical_id : Int) : SystemRoot :=
  { root with sockets := root.sockets ++ [{ socketID := logical_id, cores := [], uncore := uncore }] }

/-- `SystemRoot::addThread` (`topology.h:429-458`). -/
def addThread (maxThreads : Int) (root : SystemRoot) (t : HyperThread) : Except String SystemRoot := do
  match ← addToSockets maxThreads t root.sockets with
  | some sockets => return { root with sockets := sockets }
  | none => return { root with offlinedThreadsAtStart := root.offlinedThreadsAtStart ++ [t] }

/-- `SystemRoot::findThreadByOSID` (`topology.h:460-472`). -/
def findThreadByOSID (osID : Int) (root : SystemRoot) : Option HyperThread :=
  (root.sockets.findSome? (Socket.findThreadByOSID osID)).or
    (root.offlinedThreadsAtStart.find? (·.osID == osID))

/-- All threads of the tree. -/
def threads (root : SystemRoot) : List HyperThread :=
  root.sockets.flatMap Socket.threads ++ root.offlinedThreadsAtStart

/-- Sockets and then threads, from an empty tree. -/
def build (uncore : UncoreKind) (maxThreads : Int) (logicalIds : List Int)
    (calls : List HyperThread) : Except String SystemRoot :=
  calls.foldlM (addThread maxThreads) (logicalIds.foldl (addSocket uncore) ⟨[], []⟩)

end SystemRoot

/-! ## Insertion without the check -/

/-- Put a thread into its core. -/
def insertThread (t : HyperThread) : List Core → List Core
  | [] => [⟨t, []⟩]
  | c :: rest =>
      if c.front.te.isSameCore t.te then c.push t :: rest else c :: insertThread t rest

def insertIntoSockets (t : HyperThread) : List Socket → List Socket
  | [] => []
  | s :: rest =>
      if s.socketID = t.te.socket_id then { s with cores := insertThread t s.cores } :: rest
      else s :: insertIntoSockets t rest

theorem addToCores_eq (maxThreads : Int) (t : HyperThread) (cores : List Core) :
    addToCores maxThreads t cores =
      (checkThread maxThreads t.te).map fun _ => insertThread t cores := by
  induction cores with
  | nil =>
      rw [addToCores, Core.new]
      cases checkThread maxThreads t.te <;> rfl
  | cons c rest ih =>
      rw [addToCores, insertThread]
      split
      · rw [Core.addHyperThreadInfo]
        cases checkThread maxThreads t.te <;> rfl
      · rw [ih]
        cases checkThread maxThreads t.te <;> rfl

theorem addToSockets_eq (maxThreads : Int) (t : HyperThread) (sockets : List Socket) :
    addToSockets maxThreads t sockets =
      if t.te.socket_id ∈ sockets.map Socket.socketID then
        (checkThread maxThreads t.te).map fun _ => some (insertIntoSockets t sockets)
      else .ok none := by
  induction sockets with
  | nil => rfl
  | cons s rest ih =>
      rw [addToSockets, insertIntoSockets]
      by_cases own : s.socketID = t.te.socket_id
      · rw [if_pos own, if_pos (by simp [own]), if_pos own, addToCores_eq]
        cases checkThread maxThreads t.te <;> rfl
      · rw [if_neg own, if_neg own, ih]
        by_cases later : t.te.socket_id ∈ rest.map Socket.socketID
        · rw [if_pos later, if_pos (by simp [later])]
          cases checkThread maxThreads t.te <;> rfl
        · have none : t.te.socket_id ∉ (s :: rest).map Socket.socketID := by
            rw [List.map_cons, List.mem_cons]
            rintro (same | mem)
            · exact own same.symm
            · exact later mem
          rw [if_neg later, if_neg none]
          rfl

/-- What one call does: it throws for a thread of a known socket with too large an id. -/
theorem addThread_eq (maxThreads : Int) (root : SystemRoot) (t : HyperThread) :
    root.addThread maxThreads t =
      if t.te.socket_id ∈ root.sockets.map Socket.socketID then
        (checkThread maxThreads t.te).map fun _ =>
          { root with sockets := insertIntoSockets t root.sockets }
      else .ok { root with offlinedThreadsAtStart := root.offlinedThreadsAtStart ++ [t] } := by
  rw [SystemRoot.addThread, addToSockets_eq]
  split
  · cases checkThread maxThreads t.te <;> rfl
  · rfl

theorem map_socketID_insertIntoSockets (t : HyperThread) (sockets : List Socket) :
    (insertIntoSockets t sockets).map Socket.socketID = sockets.map Socket.socketID := by
  induction sockets with
  | nil => rfl
  | cons s rest ih =>
      rw [insertIntoSockets]
      split
      · rfl
      · rw [List.map_cons, List.map_cons, ih]

theorem sockets_addSocket (uncore : UncoreKind) (logicalIds : List Int) (root : SystemRoot) :
    logicalIds.foldl (SystemRoot.addSocket uncore) root =
      { root with sockets := root.sockets ++
          logicalIds.map fun id => { socketID := id, cores := [], uncore := uncore } } := by
  induction logicalIds generalizing root with
  | nil => simp
  | cons id rest ih =>
      rw [List.foldl_cons, ih]
      simp [SystemRoot.addSocket]

/-! ## The invariant -/

/-- The threads of a core share its key, and no two cores have one key. -/
structure Grouped (cores : List Core) : Prop where
  shared : ∀ c ∈ cores, ∀ t ∈ c.threads, t.te.coreKey = c.key
  apart : (cores.map Core.key).Nodup

/-- A socket has threads of its own id only, in groups. -/
structure Socket.Sound (s : Socket) : Prop where
  own : ∀ t ∈ s.threads, t.te.socket_id = s.socketID
  grouped : Grouped s.cores

/-- The tree has the threads of some calls, where they belong. -/
structure Tree (ids : List Int) (calls : List HyperThread) (root : SystemRoot) : Prop where
  sockets : root.sockets.map Socket.socketID = ids
  threads : root.threads.Perm calls
  offlined : ∀ t ∈ root.offlinedThreadsAtStart, t.te.socket_id ∉ ids
  sound : ∀ s ∈ root.sockets, s.Sound

theorem key_push (t : HyperThread) (c : Core) : (c.push t).key = c.key := by
  unfold Core.push
  split <;> rfl

theorem threads_push {t : HyperThread} {c : Core} (fresh : ∀ u ∈ c.threads, u.osID ≠ t.osID) :
    (c.push t).threads = c.threads ++ [t] := by
  have absent : c.threads.any (·.osID == t.osID) = false := by
    rw [List.any_eq_false]
    intro u mem
    simpa using fresh u mem
  rw [Core.push, absent]
  rfl

/-- The cores keep their threads and get the new one. -/
theorem perm_insertThread {t : HyperThread} {cores : List Core}
    (fresh : ∀ u ∈ cores.flatMap Core.threads, u.osID ≠ t.osID) :
    ((insertThread t cores).flatMap Core.threads).Perm (cores.flatMap Core.threads ++ [t]) := by
  induction cores with
  | nil => exact List.Perm.refl _
  | cons c rest ih =>
      rw [List.flatMap_cons] at fresh
      rw [insertThread]
      split
      · rw [List.flatMap_cons, List.flatMap_cons,
          threads_push (fun u mem => fresh u (List.mem_append_left _ mem)), List.append_assoc,
          List.append_assoc]
        exact List.perm_append_comm.append_left _
      · rw [List.flatMap_cons, List.flatMap_cons, List.append_assoc]
        exact (ih fun u mem => fresh u (List.mem_append_right _ mem)).append_left _

theorem keys_insertThread (t : HyperThread) (cores : List Core) :
    (insertThread t cores).map Core.key =
      if t.te.coreKey ∈ cores.map Core.key then cores.map Core.key
      else cores.map Core.key ++ [t.te.coreKey] := by
  induction cores with
  | nil => rfl
  | cons c rest ih =>
      rw [insertThread]
      by_cases same : c.front.te.isSameCore t.te = true
      · have key : c.key = t.te.coreKey := TopologyEntry.isSameCore_iff.mp same
        rw [if_pos same, if_pos (by simp [key]), List.map_cons, List.map_cons, key_push]
      · have other : t.te.coreKey ≠ c.key := fun key =>
          same (TopologyEntry.isSameCore_iff.mpr key.symm)
        rw [if_neg same, List.map_cons, List.map_cons, ih]
        by_cases mem : t.te.coreKey ∈ rest.map Core.key
        · rw [if_pos mem, if_pos (List.mem_cons_of_mem _ mem)]
        · rw [if_neg mem, if_neg (by rw [List.mem_cons]; tauto)]
          rfl

theorem grouped_insertThread {t : HyperThread} {cores : List Core}
    (fresh : ∀ u ∈ cores.flatMap Core.threads, u.osID ≠ t.osID) (good : Grouped cores) :
    Grouped (insertThread t cores) := by
  constructor
  · have shared := good.shared
    clear good
    induction cores with
    | nil =>
        intro c mem u inner
        obtain rfl := List.mem_singleton.mp mem
        obtain rfl := List.mem_singleton.mp inner
        rfl
    | cons c rest ih =>
        rw [List.flatMap_cons] at fresh
        intro d mem u inner
        rw [insertThread] at mem
        split at mem
        · next same =>
            rcases List.mem_cons.mp mem with rfl | mem
            · rw [threads_push (fun u mem => fresh u (List.mem_append_left _ mem)),
                List.mem_append, List.mem_singleton] at inner
              rw [key_push]
              rcases inner with inner | rfl
              · exact shared c List.mem_cons_self u inner
              · exact (TopologyEntry.isSameCore_iff.mp same).symm
            · exact shared d (List.mem_cons_of_mem _ mem) u inner
        · rcases List.mem_cons.mp mem with rfl | mem
          · exact shared d List.mem_cons_self u inner
          · exact ih (fun u mem => fresh u (List.mem_append_right _ mem))
              (fun c mem => shared c (List.mem_cons_of_mem _ mem)) d mem u inner
  · rw [keys_insertThread]
    split
    · exact good.apart
    · next absent =>
        rw [List.nodup_append]
        refine ⟨good.apart, by simp, ?_⟩
        intro key mem key' single same
        rw [List.mem_singleton.mp single] at same
        exact absent (same ▸ mem)

theorem sound_insertThread {t : HyperThread} {s : Socket} (own : s.socketID = t.te.socket_id)
    (fresh : ∀ u ∈ s.threads, u.osID ≠ t.osID) (sound : s.Sound) :
    ({ s with cores := insertThread t s.cores } : Socket).Sound := by
  refine ⟨?_, grouped_insertThread fresh sound.grouped⟩
  intro u mem
  rcases List.mem_append.mp ((perm_insertThread fresh).mem_iff.mp mem) with old | new
  · exact sound.own u old
  · rw [List.mem_singleton.mp new]
    exact own.symm

/-- The sockets keep their threads and get the new one, when one has its id. -/
theorem insertIntoSockets_spec {t : HyperThread} {sockets : List Socket}
    (known : t.te.socket_id ∈ sockets.map Socket.socketID)
    (fresh : ∀ u ∈ sockets.flatMap Socket.threads, u.osID ≠ t.osID)
    (sound : ∀ s ∈ sockets, s.Sound) :
    ((insertIntoSockets t sockets).flatMap Socket.threads).Perm
        (sockets.flatMap Socket.threads ++ [t]) ∧
      ∀ s ∈ insertIntoSockets t sockets, s.Sound := by
  induction sockets with
  | nil => simp at known
  | cons s rest ih =>
      rw [List.flatMap_cons] at fresh
      have freshHere : ∀ u ∈ s.threads, u.osID ≠ t.osID :=
        fun u mem => fresh u (List.mem_append_left _ mem)
      have soundRest : ∀ r ∈ rest, r.Sound := fun r mem => sound r (List.mem_cons_of_mem _ mem)
      have soundHere := sound s List.mem_cons_self
      rw [insertIntoSockets]
      by_cases own : s.socketID = t.te.socket_id
      · rw [if_pos own]
        constructor
        · rw [List.flatMap_cons, List.flatMap_cons, List.append_assoc]
          refine ((perm_insertThread freshHere).append_right _).trans ?_
          rw [List.append_assoc]
          exact List.perm_append_comm.append_left _
        · intro r mem
          rcases List.mem_cons.mp mem with rfl | mem
          · exact sound_insertThread own freshHere soundHere
          · exact soundRest r mem
      · have later : t.te.socket_id ∈ rest.map Socket.socketID := by
          rcases List.mem_cons.mp known with same | mem
          · exact absurd same.symm own
          · exact mem
        obtain ⟨perm, others⟩ := ih later (fun u mem => fresh u (List.mem_append_right _ mem))
          soundRest
        rw [if_neg own]
        constructor
        · rw [List.flatMap_cons, List.flatMap_cons, List.append_assoc]
          exact perm.append_left _
        · intro r mem
          rcases List.mem_cons.mp mem with rfl | mem
          · exact soundHere
          · exact others r mem

/-- One call of `addThread` with an OS id that is not in the tree yet. -/
theorem tree_addThread {ids : List Int} {calls : List HyperThread} {root root' : SystemRoot}
    {maxThreads : Int} {t : HyperThread} (tree : Tree ids calls root)
    (fresh : t.osID ∉ calls.map HyperThread.osID) (ok : root.addThread maxThreads t = .ok root') :
    Tree ids (calls ++ [t]) root' := by
  have freshThreads : ∀ u ∈ root.threads, u.osID ≠ t.osID := by
    intro u mem same
    exact fresh (same ▸ List.mem_map_of_mem (tree.threads.mem_iff.mp mem))
  have freshSockets : ∀ u ∈ root.sockets.flatMap Socket.threads, u.osID ≠ t.osID :=
    fun u mem => freshThreads u (List.mem_append_left _ mem)
  rw [addThread_eq, tree.sockets] at ok
  split at ok
  · next known =>
      have done : root' = { root with sockets := insertIntoSockets t root.sockets } := by
        cases check : checkThread maxThreads t.te with
        | error e => rw [check] at ok; cases ok
        | ok u => rw [check] at ok; cases ok; rfl
      subst done
      rw [← tree.sockets] at known
      obtain ⟨perm, sound⟩ := insertIntoSockets_spec known freshSockets tree.sound
      refine ⟨?_, ?_, tree.offlined, sound⟩
      · rw [map_socketID_insertIntoSockets, tree.sockets]
      · refine List.Perm.trans ?_ (tree.threads.append_right [t])
        unfold SystemRoot.threads
        rw [List.append_assoc]
        refine (perm.append_right _).trans ?_
        rw [List.append_assoc]
        exact List.perm_append_comm.append_left _
  · next unknown =>
      cases ok
      refine ⟨tree.sockets, ?_, ?_, tree.sound⟩
      · unfold SystemRoot.threads
        rw [← List.append_assoc]
        exact tree.threads.append_right [t]
      · intro u mem
        rcases List.mem_append.mp mem with old | new
        · exact tree.offlined u old
        · rw [List.mem_singleton.mp new]
          exact unknown

theorem tree_foldlM {ids : List Int} {done calls : List HyperThread} {root root' : SystemRoot}
    {maxThreads : Int} (tree : Tree ids done root)
    (distinct : ((done ++ calls).map HyperThread.osID).Nodup)
    (ok : calls.foldlM (SystemRoot.addThread maxThreads) root = .ok root') :
    Tree ids (done ++ calls) root' := by
  induction calls generalizing done root with
  | nil =>
      cases ok
      rwa [List.append_nil]
  | cons t rest ih =>
      rw [List.foldlM_cons] at ok
      cases step : root.addThread maxThreads t with
      | error e => rw [step] at ok; cases ok
      | ok next =>
          rw [step] at ok
          have fresh : t.osID ∉ done.map HyperThread.osID := by
            rw [List.map_append, List.map_cons, List.nodup_middle, List.nodup_cons] at distinct
            exact fun mem => distinct.1 (List.mem_append_left _ mem)
          rw [List.append_cons] at distinct ⊢
          exact ih (tree_addThread tree fresh step) distinct ok

theorem tree_empty (uncore : UncoreKind) (ids : List Int) :
    Tree ids [] (ids.foldl (SystemRoot.addSocket uncore) ⟨[], []⟩) := by
  rw [sockets_addSocket]
  refine ⟨by simp [Function.comp_def], ?_, by simp, ?_⟩
  · simp [SystemRoot.threads, Socket.threads, List.flatMap_map]
  · intro s mem
    rw [List.nil_append, List.mem_map] at mem
    obtain ⟨id, -, rfl⟩ := mem
    exact ⟨by simp [Socket.threads], ⟨by simp, by simp⟩⟩

/-! ## The finished tree -/

/-- Every thread is where it belongs and is found there. -/
structure Placed (ids : List Int) (calls : List HyperThread) (root : SystemRoot) : Prop where
  sockets : root.sockets.map Socket.socketID = ids
  threads : root.threads.Perm calls
  once : (root.threads.map HyperThread.osID).Nodup
  inSocket : ∀ t ∈ calls, t.te.socket_id ∈ ids →
    ∃ s ∈ root.sockets, s.socketID = t.te.socket_id ∧ ∃ c ∈ s.cores, t ∈ c.threads
  offlined : ∀ t ∈ calls, t.te.socket_id ∉ ids → t ∈ root.offlinedThreadsAtStart
  sameCore : ∀ s ∈ root.sockets, ∀ (i j : Nat) (hi : i < s.cores.length) (hj : j < s.cores.length),
    ∀ t ∈ s.cores[i].threads, ∀ u ∈ s.cores[j].threads, i = j ↔ t.te.isSameCore u.te = true
  found : ∀ t ∈ calls, root.findThreadByOSID t.osID = some t

theorem findThreadByOSID_eq (osID : Int) (root : SystemRoot) :
    root.findThreadByOSID osID = root.threads.find? (·.osID == osID) := by
  unfold SystemRoot.findThreadByOSID SystemRoot.threads
  rw [List.find?_append, List.find?_flatMap]
  congr 2
  funext s
  rw [Socket.threads, List.find?_flatMap]
  rfl

theorem find?_osID {threads : List HyperThread} (once : (threads.map HyperThread.osID).Nodup)
    {t : HyperThread} (mem : t ∈ threads) : threads.find? (·.osID == t.osID) = some t := by
  induction threads with
  | nil => simp at mem
  | cons u rest ih =>
      rw [List.map_cons, List.nodup_cons] at once
      rcases List.mem_cons.mp mem with rfl | mem
      · simp
      · have other : u.osID ≠ t.osID := fun same => once.1 (same ▸ List.mem_map_of_mem mem)
        rw [List.find?_cons_of_neg (by simpa using other), ih once.2 mem]

theorem Tree.placed {ids : List Int} {calls : List HyperThread} {root : SystemRoot}
    (tree : Tree ids calls root) (distinct : (calls.map HyperThread.osID).Nodup) :
    Placed ids calls root := by
  have once : (root.threads.map HyperThread.osID).Nodup :=
    (tree.threads.map HyperThread.osID).nodup_iff.mpr distinct
  refine ⟨tree.sockets, tree.threads, once, ?_, ?_, ?_, ?_⟩
  · intro t mem known
    rcases List.mem_append.mp (tree.threads.mem_iff.mpr mem) with inner | outer
    · obtain ⟨s, socket, thread⟩ := List.mem_flatMap.mp inner
      obtain ⟨c, core, last⟩ := List.mem_flatMap.mp thread
      exact ⟨s, socket, ((tree.sound s socket).own t thread).symm, c, core, last⟩
    · exact absurd known (tree.offlined t outer)
  · intro t mem unknown
    rcases List.mem_append.mp (tree.threads.mem_iff.mpr mem) with inner | outer
    · obtain ⟨s, socket, thread⟩ := List.mem_flatMap.mp inner
      rw [(tree.sound s socket).own t thread, ← tree.sockets] at unknown
      exact absurd (List.mem_map_of_mem socket) unknown
    · exact outer
  · intro s socket i j hi hj t left u right
    obtain ⟨-, shared, apart⟩ := tree.sound s socket
    have keyI := shared _ (List.getElem_mem hi) t left
    have keyJ := shared _ (List.getElem_mem hj) u right
    rw [TopologyEntry.isSameCore_iff, keyI, keyJ]
    constructor
    · rintro rfl
      rfl
    · intro same
      have position := @List.Nodup.getElem_inj_iff _ _ apart i (by simpa using hi) j (by simpa using hj)
      rw [List.getElem_map, List.getElem_map] at position
      exact position.mp same
  · intro t mem
    rw [findThreadByOSID_eq]
    exact find?_osID once (tree.threads.mem_iff.mpr mem)

/-- Calls of `addThread` with different OS ids, none of which throws, place every thread. -/
theorem placed_build {uncore : UncoreKind} {maxThreads : Int} {ids : List Int}
    {calls : List HyperThread} {root : SystemRoot}
    (distinct : (calls.map HyperThread.osID).Nodup)
    (ok : SystemRoot.build uncore maxThreads ids calls = .ok root) : Placed ids calls root := by
  have tree : Tree ids ([] ++ calls) root := tree_foldlM (tree_empty uncore ids) (by simpa using distinct) ok
  exact tree.placed distinct

/-! ## When no call throws -/

theorem addThread_ok_iff (maxThreads : Int) (root : SystemRoot) (t : HyperThread) :
    (∃ root', root.addThread maxThreads t = .ok root') ↔
      (t.te.socket_id ∈ root.sockets.map Socket.socketID → t.te.thread_id < maxThreads) := by
  rw [addThread_eq]
  split
  · next known =>
      unfold checkThread
      split
      · next large =>
          constructor
          · rintro ⟨root', ok⟩
            cases ok
          · intro small
            have := small known
            omega
      · next small =>
          refine iff_of_true ⟨_, rfl⟩ fun _ => ?_
          omega
  · next unknown => exact iff_of_true ⟨_, rfl⟩ fun known => absurd known unknown

theorem sockets_of_addThread_ok {maxThreads : Int} {root root' : SystemRoot} {t : HyperThread}
    (ok : root.addThread maxThreads t = .ok root') :
    root'.sockets.map Socket.socketID = root.sockets.map Socket.socketID := by
  rw [addThread_eq] at ok
  split at ok
  · cases check : checkThread maxThreads t.te with
    | error e => rw [check] at ok; cases ok
    | ok u =>
        rw [check] at ok
        cases ok
        exact map_socketID_insertIntoSockets t root.sockets
  · cases ok
    rfl

theorem foldlM_ok_iff (maxThreads : Int) (root : SystemRoot) (calls : List HyperThread) :
    (∃ root', calls.foldlM (SystemRoot.addThread maxThreads) root = .ok root') ↔
      ∀ t ∈ calls, t.te.socket_id ∈ root.sockets.map Socket.socketID →
        t.te.thread_id < maxThreads := by
  induction calls generalizing root with
  | nil => exact iff_of_true ⟨root, rfl⟩ (by simp)
  | cons t rest ih =>
      rw [List.foldlM_cons, List.forall_mem_cons, ← addThread_ok_iff]
      cases step : root.addThread maxThreads t with
      | error e =>
          constructor
          · rintro ⟨root', ok⟩
            cases ok
          · rintro ⟨⟨root', ok⟩, -⟩
            cases ok
      | ok next =>
          have later := ih next
          rw [sockets_of_addThread_ok step] at later
          refine Iff.trans later ⟨fun all => ⟨⟨next, rfl⟩, all⟩, fun both => both.2⟩

/-- A tree is built unless a thread of a known socket has too large an id. -/
theorem build_ok_iff (uncore : UncoreKind) (maxThreads : Int) (ids : List Int)
    (calls : List HyperThread) :
    (∃ root, SystemRoot.build uncore maxThreads ids calls = .ok root) ↔
      ∀ t ∈ calls, t.te.socket_id ∈ ids → t.te.thread_id < maxThreads := by
  rw [SystemRoot.build, foldlM_ok_iff, sockets_addSocket]
  simp [Function.comp_def]

/-! ## Two sockets with three cores, and an offlined thread -/

def threadEntry (socket core thread : Int) : TopologyEntry :=
  { thread_id := thread, core_id := core, module_id := 0, tile_id := core, die_id := 0,
    die_grp_id := 0, socket_id := socket, socket_unique_core_id := core }

def threadCalls : List HyperThread :=
  [⟨0, threadEntry 0 0 0⟩, ⟨1, threadEntry 0 1 0⟩, ⟨2, threadEntry (-1) (-1) (-1)⟩, ⟨3, threadEntry 1 0 0⟩,
    ⟨4, threadEntry 0 0 1⟩]

def threadTree : SystemRoot :=
  { sockets := [
      { socketID := 0
        cores := [⟨⟨0, threadEntry 0 0 0⟩, [⟨4, threadEntry 0 0 1⟩]⟩, ⟨⟨1, threadEntry 0 1 0⟩, []⟩]
        uncore := .server },
      { socketID := 1
        cores := [⟨⟨3, threadEntry 1 0 0⟩, []⟩]
        uncore := .server }]
    offlinedThreadsAtStart := [⟨2, threadEntry (-1) (-1) (-1)⟩] }

theorem placed_build_threadCalls :
    SystemRoot.build .server 2 [0, 1] threadCalls = .ok threadTree ∧ Placed [0, 1] threadCalls threadTree := by
  have built : SystemRoot.build .server 2 [0, 1] threadCalls = .ok threadTree := rfl
  exact ⟨built, placed_build (by decide) built⟩

end Pcm.Topology
