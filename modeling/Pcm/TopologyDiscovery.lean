import Pcm.ApicId
import Pcm.TopologyTree
import Pcm.Lib.SortedRuns
import Mathlib.Data.List.ReduceOption
import Mathlib.Data.List.Lex
import Mathlib.Data.List.Sort
import Mathlib.Data.List.TakeWhile
import Mathlib.Order.Lattice

/-!
# Discovery of the system topology

`PCM::discoverSystemTopology` (`cpucounters.cpp:1439-1581`) makes an entry for each logical processor,
replaces the socket ids by consecutive numbers, sorts the entries to count the threads of each core,
and builds the tree. The largest count becomes the limit for thread ids. Thread ids are bits of the
APIC id, and a core of which only some threads are online has fewer threads than its ids say.
-/

namespace Pcm.Topology

open SortedRuns

namespace TopologyEntry

/-- `operator <` (`topologyentry.h:99-114`). -/
def lt (a other : TopologyEntry) : Bool :=
  if a.socket_id ≠ other.socket_id then a.socket_id < other.socket_id
  else if a.die_grp_id ≠ other.die_grp_id then a.die_grp_id < other.die_grp_id
  else if a.die_id ≠ other.die_id then a.die_id < other.die_id
  else if a.tile_id ≠ other.tile_id then a.tile_id < other.tile_id
  else if a.module_id ≠ other.module_id then a.module_id < other.module_id
  else if a.core_id ≠ other.core_id then a.core_id < other.core_id
  else a.thread_id < other.thread_id

/-- The default constructor. -/
def offlined : TopologyEntry :=
  { thread_id := -1, core_id := -1, module_id := -1, tile_id := -1, die_id := -1, die_grp_id := -1,
    socket_id := -1, socket_unique_core_id := -1 }

/-- The ids in the order in which `operator <` compares them. -/
def orderKey (te : TopologyEntry) : List Int := te.coreKey ++ [te.thread_id]

theorem lt_iff {a b : TopologyEntry} : a.lt b = true ↔ a.orderKey < b.orderKey := by
  simp only [lt, orderKey, coreKey, List.cons_append, List.nil_append, List.cons_lt_cons_iff]
  split
  · simp_all
  · split
    · simp_all
    · split
      · simp_all
      · split
        · simp_all
        · split
          · simp_all
          · split
            · simp_all
            · simp_all

theorem coreKey_le {a b : TopologyEntry} (order : a.orderKey ≤ b.orderKey) :
    a.coreKey ≤ b.coreKey := by
  by_contra above
  rw [not_le] at above
  apply absurd order
  rw [not_le]
  simp only [orderKey, coreKey, List.cons_append, List.nil_append, List.cons_lt_cons_iff] at above ⊢
  simp only [List.not_lt_nil, and_false, or_false] at above
  tauto

end TopologyEntry

/-- An element of `topology`: the entry with the OS id, -1 for an offlined processor. -/
structure Entry where
  os_id : Int
  te : TopologyEntry
  deriving DecidableEq, Repr

namespace Entry

/-- `isCoreOnline` (`cpucounters.cpp:3497-3500`). -/
def isCoreOnline (e : Entry) : Bool :=
  e.os_id != -1 && e.te.core_id != -1 && e.te.socket_id != -1

def key (e : Entry) : List Int := e.te.coreKey

/-- The order in which `std::sort` leaves two entries. -/
def NotAfter (a b : Entry) : Prop := b.te.lt a.te = false

instance : DecidableRel NotAfter := fun a b => inferInstanceAs (Decidable (b.te.lt a.te = false))

theorem notAfter_iff {a b : Entry} : a.NotAfter b ↔ a.te.orderKey ≤ b.te.orderKey := by
  rw [NotAfter, ← Bool.not_eq_true, TopologyEntry.lt_iff, not_lt]

instance : Std.Total NotAfter where
  total a b := by
    rw [notAfter_iff, notAfter_iff]
    exact le_total _ _

instance : IsTrans Entry NotAfter where
  trans _ _ _ left right := notAfter_iff.mpr ((notAfter_iff.mp left).trans (notAfter_iff.mp right))

end Entry

/-- The logical processors of a system, by OS id: the APIC ids of those that are online. -/
structure Processors where
  leaf : Leaf1F
  l2CacheMaskShift : BitVec 32
  processors : List (Option ApicIds)
  distinct : (processors.filterMap (Option.map ApicIds.leaf1F)).Nodup
  someOnline : processors.reduceOption ≠ []

/-- The loop that counts the threads of each core in a sorted list. -/
def countThreads (firstCore : TopologyEntry) (current_threads_per_core threads_per_core : Nat) :
    List Entry → Nat
  | [] => max threads_per_core current_threads_per_core
  | e :: rest =>
      if e.te.isSameCore firstCore then
        countThreads firstCore (current_threads_per_core + 1) threads_per_core rest
      else countThreads e.te 1 (max threads_per_core current_threads_per_core) rest

namespace Processors

variable (m : Processors)

/-- The entry of a processor; one that `populateEntry` throws for is marked offline. -/
def entry (osId : Nat) (p : Option ApicIds) : Entry :=
  match p.bind (populateEntry m.leaf.domains m.l2CacheMaskShift) with
  | some te => ⟨osId, te⟩
  | none => ⟨-1, .offlined⟩

def populated : List Entry := m.processors.zipIdx.map fun (p, i) => m.entry i p

/-- The keys of `socketIdMap` in their order; the value of a key becomes its position. -/
def socketIdMap : List (BitVec 32) :=
  ((m.populated.filter (·.os_id ≠ -1)).map fun e => BitVec.ofInt 32 e.te.socket_id).eraseDups.insertionSort
    (· ≤ ·)

/-- Replace the APIC socket id of an online entry by the logical one. -/
def renumber (e : Entry) : Entry :=
  if e.isCoreOnline then
    { e with te := { e.te with
        socket_id := (m.socketIdMap.idxOf (BitVec.ofInt 32 e.te.socket_id) : Nat) } }
  else e

def topology : List Entry := m.populated.map m.renumber

def sortedTopology : List Entry := m.topology.insertionSort Entry.NotAfter

/-- `threads_per_core` (`cpucounters.cpp:1523-1558`); there is none when the search for an online
entry runs off the end. -/
def threadsPerCore : Option Nat :=
  match m.sortedTopology.dropWhile (!·.isCoreOnline) with
  | [] => none
  | currentCore :: rest => some (countThreads currentCore.te 0 0 (currentCore :: rest))

/-- The ids for `addSocket`. -/
def socketIds : List Int := (List.range m.socketIdMap.length).map Int.ofNat

/-- The calls of `addThread` (`cpucounters.cpp:1569-1573`). -/
def calls : List HyperThread := m.topology.zipIdx.map fun (e, cid) => ⟨cid, e.te⟩

/-- The entries that `populateEntry` filled in. -/
def filled : List TopologyEntry := (m.topology.filter (·.os_id ≠ -1)).map Entry.te

end Processors

/-- The largest number of entries that are pairwise in the same core. -/
structure IsLargest (entries : List TopologyEntry) (n : Nat) : Prop where
  attained : ∃ s : List TopologyEntry, s.Sublist entries ∧
    s.Pairwise (fun a b => a.isSameCore b = true) ∧ s.length = n
  bound : ∀ s : List TopologyEntry, s.Sublist entries →
    s.Pairwise (fun a b => a.isSameCore b = true) → s.length ≤ n

/-- The discovery counts the threads of the fullest core, and the tree takes every thread. -/
def Accepts (uncore : UncoreKind) (m : Processors) : Prop :=
  ∃ threads_per_core, m.threadsPerCore = some threads_per_core ∧
    IsLargest m.filled threads_per_core ∧
    ∃ root, SystemRoot.build uncore threads_per_core m.socketIds m.calls = .ok root

/-- Some processor counts as online, and for each thread of a known socket there is a core with more
threads than its id says. -/
def Dense (m : Processors) : Prop :=
  (∃ e ∈ m.topology, e.isCoreOnline = true) ∧
    ∀ te ∈ m.filled, te.socket_id ∈ m.socketIds → ∃ s : List TopologyEntry, s.Sublist m.filled ∧
      s.Pairwise (fun a b => a.isSameCore b = true) ∧ te.thread_id < s.length

/-! ## Largest cores -/

theorem isLargest_of_count {entries : List TopologyEntry} {n : Nat}
    (bound : ∀ k ∈ entries.map TopologyEntry.coreKey, (entries.map TopologyEntry.coreKey).count k ≤ n)
    (attained : ∃ k, (entries.map TopologyEntry.coreKey).count k = n) : IsLargest entries n := by
  constructor
  · obtain ⟨k, count⟩ := attained
    refine ⟨entries.filter (fun te => te.coreKey == k), List.filter_sublist, ?_, ?_⟩
    · apply List.pairwise_of_forall_mem_list
      intro a left b right
      have keyA : a.coreKey = k := by simpa using (List.mem_filter.mp left).2
      have keyB : b.coreKey = k := by simpa using (List.mem_filter.mp right).2
      rw [TopologyEntry.isSameCore_iff, keyA, keyB]
    · rw [← count, List.count, List.countP_map, List.countP_eq_length_filter]
      rfl
  · intro s sub pairs
    cases s with
    | nil => exact Nat.zero_le _
    | cons e s =>
        have same : ∀ k ∈ (e :: s).map TopologyEntry.coreKey, e.coreKey = k := by
          intro k mem
          obtain ⟨a, inner, rfl⟩ := List.mem_map.mp mem
          rcases List.mem_cons.mp inner with rfl | inner
          · rfl
          · exact TopologyEntry.isSameCore_iff.mp ((List.pairwise_cons.mp pairs).1 a inner)
        have all := List.count_eq_length.mpr same
        have inside := (sub.map TopologyEntry.coreKey).count_le e.coreKey
        have own := bound e.coreKey (List.mem_map_of_mem (sub.subset List.mem_cons_self))
        rw [all, List.length_map] at inside
        omega

theorem countThreads_eq (firstCore : TopologyEntry) (current best : Nat) (l : List Entry) :
    countThreads firstCore current best l =
      longestRun firstCore.coreKey current best (l.map Entry.key) := by
  induction l generalizing firstCore current best with
  | nil => rfl
  | cons e rest ih =>
      rw [countThreads, List.map_cons, longestRun]
      have key : e.te.isSameCore firstCore = true ↔ e.key = firstCore.coreKey :=
        TopologyEntry.isSameCore_iff
      by_cases same : e.te.isSameCore firstCore = true
      · rw [if_pos same, if_pos (key.mp same), ih]
      · rw [if_neg same, if_neg (fun equal => same (key.mpr equal)), ih]
        rfl

/-! ## The entries -/

/-- An id with all bits set comes from an APIC id with all bits set. -/
theorem getID_eq_neg_one {domains : List Domain} {a : BitVec 32} {t : DomainTypeID}
    (h : (getID domains a t).toInt = -1) : a = -1 := by
  have ones : getID domains a t = -1 := BitVec.eq_of_toInt_eq h
  have below : (getID domains a t).toNat ≤ a.toNat := by
    unfold getID
    cases topologyDomainMap domains t with
    | none => exact Nat.zero_le _
    | some d =>
        simp only [extractBits32]
        rw [BitVec.toNat_and, BitVec.ushiftRight_eq', BitVec.toNat_ushiftRight,
          Nat.shiftRight_eq_div_pow]
        exact Nat.and_le_left.trans (Nat.div_le_self _ _)
  rw [ones] at below
  apply BitVec.eq_of_toNat_eq
  have top : (-1 : BitVec 32).toNat = 2 ^ 32 - 1 := rfl
  have upper := a.isLt
  omega

theorem populateEntry_ids (leaf : Leaf1F) (shift : BitVec 32) (ids : ApicIds) :
    ∃ te, populateEntry leaf.domains shift ids = some te ∧
      te.core_id = (getID leaf.domains ids.leaf1F .coreDomain).toInt ∧
      te.socket_id = (getID leaf.domains ids.leaf1F .socketPackageDomain).toInt := by
  obtain ⟨core, mem, type⟩ := leaf.exists_core
  unfold populateEntry
  rw [leaf.socketUniqueCoreID_eq mem type]
  exact ⟨_, rfl, rfl, rfl⟩

namespace Processors

variable {m : Processors}

theorem os_id_renumber (e : Entry) : (m.renumber e).os_id = e.os_id := by
  unfold renumber
  split <;> rfl

/-- The logical number of an online entry is not negative. -/
theorem online_renumber {e : Entry} (online : e.isCoreOnline = true) :
    (m.renumber e).isCoreOnline = true ∧ 0 ≤ (m.renumber e).te.socket_id := by
  have fields := online
  simp only [Entry.isCoreOnline, Bool.and_eq_true, bne_iff_ne] at fields
  rw [renumber, if_pos online]
  refine ⟨?_, Int.natCast_nonneg _⟩
  simp only [Entry.isCoreOnline, Bool.and_eq_true, bne_iff_ne]
  exact ⟨⟨fields.1.1, fields.1.2⟩, by omega⟩

theorem online_of_renumber {e : Entry} (online : (m.renumber e).isCoreOnline = true) :
    e.isCoreOnline = true := by
  by_contra off
  rw [renumber, if_neg off] at online
  exact off online

theorem mem_topology {e : Entry} (mem : e ∈ m.topology) :
    ∃ p i, (p, i) ∈ m.processors.zipIdx ∧ e = m.renumber (m.entry i p) := by
  obtain ⟨e', inner, rfl⟩ := List.mem_map.mp mem
  obtain ⟨⟨p, i⟩, pair, rfl⟩ := List.mem_map.mp inner
  exact ⟨p, i, pair, rfl⟩

/-- An online entry has a logical socket number. -/
theorem socket_nonneg {e : Entry} (mem : e ∈ m.topology) (online : e.isCoreOnline = true) :
    0 ≤ e.te.socket_id := by
  obtain ⟨p, i, -, rfl⟩ := mem_topology mem
  exact (online_renumber (online_of_renumber online)).2

theorem entry_some (i : Nat) (ids : ApicIds) : (m.entry i (some ids)).os_id = i ∧
    (m.entry i (some ids)).te.core_id = (getID m.leaf.domains ids.leaf1F .coreDomain).toInt ∧
    (m.entry i (some ids)).te.socket_id =
      (getID m.leaf.domains ids.leaf1F .socketPackageDomain).toInt := by
  obtain ⟨te, populated, core, socket⟩ := populateEntry_ids m.leaf m.l2CacheMaskShift ids
  unfold entry
  rw [Option.bind_some, populated]
  exact ⟨rfl, core, socket⟩

/-- An entry without OS id has the ids of an offlined processor. -/
theorem te_of_os_id {e : Entry} (mem : e ∈ m.topology) (off : e.os_id = -1) : e.te = .offlined := by
  obtain ⟨p, i, -, rfl⟩ := mem_topology mem
  cases p with
  | none => rfl
  | some ids =>
      rw [os_id_renumber, (m.entry_some i ids).1] at off
      omega

/-- An entry that was filled in and does not count as online has the last APIC id of all. -/
theorem apicId_of_not_online {i : Nat} {ids : ApicIds}
    (off : (m.renumber (m.entry i (some ids))).isCoreOnline = false) : ids.leaf1F = -1 := by
  have before : ¬ (m.entry i (some ids)).isCoreOnline = true := by
    intro online
    rw [(online_renumber online).1] at off
    cases off
  obtain ⟨os, core, socket⟩ := m.entry_some i ids
  have osId : (m.entry i (some ids)).os_id ≠ -1 := by omega
  by_contra other
  apply before
  simp only [Entry.isCoreOnline, Bool.and_eq_true, bne_iff_ne]
  refine ⟨⟨osId, ?_⟩, ?_⟩
  · rw [core]
    exact fun ones => other (getID_eq_neg_one ones)
  · rw [socket]
    exact fun ones => other (getID_eq_neg_one ones)

/-- Such an entry shares its core with no other entry. -/
theorem count_of_not_online {g : Entry} (osId : g.os_id ≠ -1)
    (off : g.isCoreOnline = false) :
    (m.topology.filter (·.os_id ≠ -1)).countP (fun e => e.key == g.key) ≤ 1 := by
  have ghost : g.te.core_id = -1 ∨ g.te.socket_id = -1 := by
    simp only [Entry.isCoreOnline, Bool.and_eq_false_iff, bne_eq_false_iff_eq] at off
    rcases off with (os | core) | socket
    · exact absurd os osId
    · exact .inl core
    · exact .inr socket
  have last : ∀ p i, (p, i) ∈ m.processors.zipIdx →
      ((m.renumber (m.entry i p)).os_id ≠ -1 ∧ (m.renumber (m.entry i p)).key = g.key) →
      p.map ApicIds.leaf1F = some (-1) := by
    rintro p i pair ⟨os, key⟩
    have inside : m.renumber (m.entry i p) ∈ m.topology :=
      List.mem_map_of_mem (List.mem_map_of_mem (f := fun (p, i) => m.entry i p) pair)
    have ids : (m.renumber (m.entry i p)).te.core_id = g.te.core_id ∧
        (m.renumber (m.entry i p)).te.socket_id = g.te.socket_id := by
      simp only [Entry.key, TopologyEntry.coreKey, List.cons.injEq] at key
      exact ⟨key.2.2.2.2.2.1, key.1⟩
    have offToo : (m.renumber (m.entry i p)).isCoreOnline = false := by
      by_contra online
      rw [Bool.not_eq_false] at online
      have nonneg := socket_nonneg inside online
      simp only [Entry.isCoreOnline, Bool.and_eq_true, bne_iff_ne] at online
      rcases ghost with core | socket
      · exact online.1.2 (ids.1.trans core)
      · omega
    cases p with
    | none => exact absurd (os_id_renumber (m := m) (m.entry i none)) os
    | some a => rw [Option.map_some, apicId_of_not_online offToo]
  have once : m.processors.countP (fun p => p.map ApicIds.leaf1F == some (-1)) ≤ 1 := by
    have nodup := List.nodup_iff_count_le_one.mp m.distinct (-1)
    rwa [List.count_filterMap] at nodup
  refine le_trans ?_ once
  rw [List.countP_filter, topology, populated, List.map_map, List.countP_map]
  have pairs : m.processors.zipIdx.map Prod.fst = m.processors := List.zipIdx_map_fst 0 _
  conv_rhs => rw [← pairs, List.countP_map]
  apply List.countP_mono_left
  rintro ⟨p, i⟩ pair holds
  simp only [Function.comp_apply, Bool.and_eq_true, beq_iff_eq, decide_eq_true_eq] at holds ⊢
  exact last p i pair ⟨holds.2, holds.1⟩

/-! ## The sorted entries -/

theorem pairwise_sorted : m.sortedTopology.Pairwise fun a b => a.te.orderKey ≤ b.te.orderKey :=
  (List.pairwise_insertionSort Entry.NotAfter m.topology).imp fun order =>
    Entry.notAfter_iff.mp order

theorem mem_sorted {e : Entry} : e ∈ m.sortedTopology ↔ e ∈ m.topology := List.mem_insertionSort _

/-- No offlined entry follows an online one. -/
theorem os_id_of_le {e f : Entry} (mem : e ∈ m.topology) (online : e.isCoreOnline = true)
    (memF : f ∈ m.topology) (order : e.te.orderKey ≤ f.te.orderKey) : f.os_id ≠ -1 := by
  intro off
  have te := te_of_os_id memF off
  have nonneg := socket_nonneg mem online
  have below : f.te.orderKey < e.te.orderKey := by
    rw [te]
    simp only [TopologyEntry.orderKey, TopologyEntry.coreKey, List.cons_append, TopologyEntry.offlined]
    apply List.cons_lt_cons_iff.mpr
    left
    omega
  exact absurd order (not_le.mpr below)

/-- The entries from the first online one on. -/
theorem drop_spec {first : Entry} {rest : List Entry}
    (drop : m.sortedTopology.dropWhile (!·.isCoreOnline) = first :: rest) :
    (∀ e ∈ first :: rest, e ∈ m.topology ∧ e.os_id ≠ -1) ∧
      ((first :: rest).map Entry.key).Pairwise (· ≤ ·) := by
  have suffix : (first :: rest).Sublist m.sortedTopology := drop ▸ List.dropWhile_sublist _
  have sorted := (pairwise_sorted (m := m)).sublist suffix
  have online : first.isCoreOnline = true := by
    have head := List.head_dropWhile_not (p := (!·.isCoreOnline)) (l := m.sortedTopology)
      (w := by rw [drop]; exact List.cons_ne_nil _ _)
    simp only [drop, List.head_cons, Bool.not_eq_false'] at head
    exact head
  have members : ∀ e ∈ first :: rest, e ∈ m.topology := fun e mem => mem_sorted.mp (suffix.subset mem)
  constructor
  · intro e mem
    refine ⟨members e mem, ?_⟩
    rcases List.mem_cons.mp mem with rfl | later
    · simp only [Entry.isCoreOnline, Bool.and_eq_true, bne_iff_ne] at online
      exact online.1.1
    · exact os_id_of_le (members first List.mem_cons_self) online (members e mem)
        ((List.pairwise_cons.mp sorted).1 e later)
  · rw [List.pairwise_map]
    exact sorted.imp fun order => TopologyEntry.coreKey_le order

theorem map_coreKey_filled :
    m.filled.map TopologyEntry.coreKey = (m.topology.filter (·.os_id ≠ -1)).map Entry.key := by
  rw [filled, List.map_map]
  rfl

/-- The numbers of entries by core, before and after the first online entry. -/
theorem count_filled {first : Entry} {rest : List Entry}
    (drop : m.sortedTopology.dropWhile (!·.isCoreOnline) = first :: rest) (k : List Int) :
    (m.filled.map TopologyEntry.coreKey).count k =
      (((m.sortedTopology.takeWhile (!·.isCoreOnline)).filter (·.os_id ≠ -1)).map Entry.key).count k +
        ((first :: rest).map Entry.key).count k := by
  have perm : m.topology.Perm m.sortedTopology := (List.perm_insertionSort _ _).symm
  have kept : (first :: rest).filter (·.os_id ≠ -1) = first :: rest := by
    apply List.filter_eq_self.mpr
    intro e mem
    simpa using ((drop_spec drop).1 e mem).2
  have split := List.takeWhile_append_dropWhile (p := (!·.isCoreOnline)) (l := m.sortedTopology)
  rw [map_coreKey_filled, ((perm.filter _).map _).count_eq]
  conv_lhs => rw [← split, drop, List.filter_append, kept, List.map_append, List.count_append]

/-- `threads_per_core` is the largest number of threads of a core. -/
theorem isLargest_threadsPerCore {n : Nat} (count : m.threadsPerCore = some n) :
    IsLargest m.filled n := by
  unfold threadsPerCore at count
  split at count
  · cases count
  · next first rest drop =>
      obtain ⟨members, sorted⟩ := drop_spec drop
      rw [Option.some.injEq, countThreads_eq] at count
      have counted := count_filled drop
      have atLeast : ∀ k ∈ (first :: rest).map Entry.key,
          ((first :: rest).map Entry.key).count k ≤ n := by
        intro k mem
        rw [← count]
        exact count_le_longestRun sorted mem
      have positive : 1 ≤ n := by
        have one := atLeast first.key List.mem_cons_self
        rw [List.map_cons, List.count_cons_self] at one
        omega
      have bound : ∀ k ∈ m.filled.map TopologyEntry.coreKey,
          (m.filled.map TopologyEntry.coreKey).count k ≤ n := by
        intro k mem
        by_cases none : k ∈ ((m.sortedTopology.takeWhile (!·.isCoreOnline)).filter
            (·.os_id ≠ -1)).map Entry.key
        · -- an entry before the first online one is alone in its core
          obtain ⟨g, inner, rfl⟩ := List.mem_map.mp none
          obtain ⟨taken, osId⟩ := List.mem_filter.mp inner
          have off := List.mem_takeWhile_imp taken
          have alone := count_of_not_online (m := m) (g := g) (by simpa using osId)
            (by simpa using off)
          rw [map_coreKey_filled, List.count, List.countP_map]
          exact alone.trans positive
        · rw [counted k, List.count_eq_zero.mpr none, Nat.zero_add]
          by_cases later : k ∈ (first :: rest).map Entry.key
          · exact atLeast k later
          · rw [List.count_eq_zero.mpr later]
            exact Nat.zero_le n
      obtain ⟨k, mem, same⟩ := exists_count_eq_longestRun sorted
      have total : ((first :: rest).map Entry.key).count k = n := same.trans count
      have whole := counted k
      have inside : k ∈ m.filled.map TopologyEntry.coreKey := by
        apply List.count_pos_iff.mp
        omega
      refine isLargest_of_count bound ⟨k, le_antisymm (bound k inside) ?_⟩
      omega

theorem threadsPerCore_isSome (online : ∃ e ∈ m.topology, e.isCoreOnline = true) :
    ∃ n, m.threadsPerCore = some n := by
  unfold threadsPerCore
  split
  · next empty =>
      obtain ⟨e, mem, on⟩ := online
      have off := List.dropWhile_eq_nil_iff.mp empty e (mem_sorted.mpr mem)
      rw [on] at off
      cases off
  · exact ⟨_, rfl⟩

theorem exists_online {n : Nat} (count : m.threadsPerCore = some n) :
    ∃ e ∈ m.topology, e.isCoreOnline = true := by
  by_contra none
  push Not at none
  have empty : m.sortedTopology.dropWhile (!·.isCoreOnline) = [] := by
    apply List.dropWhile_eq_nil_iff.mpr
    intro e mem
    simpa using none e (mem_sorted.mp mem)
  simp [threadsPerCore, empty] at count

/-- The calls for the sockets are those with entries that were filled in. -/
theorem calls_iff (n : Int) :
    (∀ t ∈ m.calls, t.te.socket_id ∈ m.socketIds → t.te.thread_id < n) ↔
      ∀ te ∈ m.filled, te.socket_id ∈ m.socketIds → te.thread_id < n := by
  have nonneg : ∀ id ∈ m.socketIds, 0 ≤ id := by
    intro id mem
    obtain ⟨i, -, rfl⟩ := List.mem_map.mp mem
    exact Int.natCast_nonneg i
  have tes : ∀ te : TopologyEntry, (∃ t ∈ m.calls, t.te = te) ↔ ∃ e ∈ m.topology, e.te = te := by
    intro te
    have pairs : ∀ e : Entry, (∃ cid, (e, cid) ∈ m.topology.zipIdx) ↔ e ∈ m.topology := by
      intro e
      simp only [List.mem_zipIdx_iff_getElem?]
      exact List.mem_iff_getElem?.symm
    simp [calls, pairs]
  constructor
  · intro all te mem
    obtain ⟨e, inner, rfl⟩ := List.mem_map.mp mem
    obtain ⟨t, call, same⟩ := (tes e.te).mpr ⟨e, (List.mem_filter.mp inner).1, rfl⟩
    rw [← same]
    exact all t call
  · intro all t call known
    obtain ⟨e, inner, same⟩ := (tes t.te).mp ⟨t, call, rfl⟩
    by_cases off : e.os_id = -1
    · have none := nonneg _ known
      rw [← same, te_of_os_id inner off] at none
      exact absurd none (by decide)
    · rw [← same] at known ⊢
      exact all e.te (List.mem_map_of_mem (List.mem_filter.mpr ⟨inner, by simpa using off⟩)) known

end Processors

/-- The discovery accepts the machine exactly when the thread ids are dense enough. -/
theorem accepts_iff (uncore : UncoreKind) (m : Processors) : Accepts uncore m ↔ Dense m := by
  constructor
  · rintro ⟨n, count, largest, built⟩
    rw [build_ok_iff, Processors.calls_iff] at built
    refine ⟨Processors.exists_online count, ?_⟩
    intro te mem known
    obtain ⟨s, sub, pairs, length⟩ := largest.attained
    refine ⟨s, sub, pairs, ?_⟩
    rw [length]
    exact built te mem known
  · rintro ⟨online, dense⟩
    obtain ⟨n, count⟩ := Processors.threadsPerCore_isSome online
    have largest := Processors.isLargest_threadsPerCore count
    refine ⟨n, count, largest, ?_⟩
    rw [build_ok_iff, Processors.calls_iff]
    intro te mem known
    obtain ⟨s, sub, pairs, below⟩ := dense te mem known
    have upper := largest.bound s sub pairs
    omega

/-! ## The second thread of a core without the first -/

/-- Thread levels of one bit and core levels of four. -/
def twoThreads : Leaf1F where
  subleaves := [⟨1, 0x100⟩, ⟨5, 0x201⟩]
  types := by decide
  distinct := by decide
  rising := by decide
  hasCore := by decide

/-- Thread 0 is offline, thread 1 is online. -/
def secondThread : Processors where
  leaf := twoThreads
  l2CacheMaskShift := 1
  processors := [none, some ⟨1, 1⟩]
  distinct := by decide
  someOnline := by decide

theorem secondThread_not_accepts : secondThread.threadsPerCore = some 1 ∧
    (∀ root, SystemRoot.build .server 1 secondThread.socketIds secondThread.calls ≠ .ok root) ∧
    ¬ Accepts .server secondThread := by
  have count : secondThread.threadsPerCore = some 1 := by decide +kernel
  have throws : ∀ root,
      SystemRoot.build .server 1 secondThread.socketIds secondThread.calls ≠ .ok root := by
    intro root built
    have small := (build_ok_iff .server 1 _ _).mp ⟨root, built⟩
    revert small
    decide +kernel
  refine ⟨count, throws, ?_⟩
  rintro ⟨n, same, -, root, built⟩
  rw [count, Option.some.injEq] at same
  subst same
  exact throws root built

end Pcm.Topology
