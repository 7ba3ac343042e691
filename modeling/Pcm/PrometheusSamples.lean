import Pcm.Lib.Labelled
import Pcm.PrometheusPrinter

/-!
# What the Prometheus printer emits

Every printing function leaves the stack of labels as it was, and the names and labels of its samples,
relative to the stack on which it starts, are a list that depends on the tree and the machine only.
-/

namespace Pcm.Prometheus

open StdString Pcm.Topology Labelled

/-! ## Samples -/

/-- Two samples with the same metric name and the same set of labels. -/
def Sample.Same (a b : Sample) : Prop := a.name = b.name ∧ ∀ label, label ∈ a.labels ↔ label ∈ b.labels

def samples (lines : List Line) : List Sample :=
  lines.filterMap (fun line => match line with
    | .sample s => some s
    | .comment _ => none)

/-- The sample has the name of the entry and its labels on top of these. -/
def Below (outer : List Bytes) (entry : Entry Bytes Label) (s : Sample) : Prop :=
  s.name = entry.name ∧ s.labels = outer ++ entry.labels.map Label.text

/-- The printing function leaves the stack alone and emits these entries. -/
def Emits (p : Print) (entries : List (Entry Bytes Label)) : Prop :=
  ∀ s, ∃ added, p s = some ((), { s with lines := s.lines ++ added }) ∧
    List.Forall₂ (Below s.hierarchy) entries (samples added)

section Rules

variable {p q body : Print} {entries others : List (Entry Bytes Label)}

theorem emits_nothing : Emits (pure ()) [] := by
  intro s
  refine ⟨[], ?_, .nil⟩
  rw [List.append_nil]
  rfl

theorem seq_some {α : Type} {x : StateT PrometheusPrinter Option α} {q : α → Print} {a : α}
    {s next : PrometheusPrinter} (first : x s = some (a, next)) : (x >>= q) s = q a next := by
  change (x s >>= fun r => q r.1 r.2) = _
  rw [first]
  rfl

def counterEntries (names : List Bytes) : List (Entry Bytes Label) :=
  plain (names.map replaceIllegalCharsWithUnderbar)

theorem emits_counter (name value : Bytes) :
    Emits (printCounter name value) (counterEntries [name]) := by
  intro s
  refine ⟨[.sample ⟨_, s.hierarchy, value⟩], rfl, .cons ⟨rfl, ?_⟩ .nil⟩
  simp

theorem Emits.seq (first : Emits p entries) (second : Emits q others) :
    Emits (p >>= fun _ => q) (entries ++ others) := by
  intro s
  obtain ⟨added, ran, at₁⟩ := first s
  obtain ⟨added', ran', at₂⟩ := second { s with lines := s.lines ++ added }
  refine ⟨added ++ added', ?_, ?_⟩
  · rw [seq_some ran, ran', List.append_assoc]
  · rw [samples, List.filterMap_append]
    exact List.rel_append at₁ at₂

/-- A comment is no sample. -/
theorem emits_after_comment (comment : Bytes) (rest : Emits q others) :
    Emits (printComment comment >>= fun _ => q) others := by
  have first : Emits (printComment comment) [] := fun _ => ⟨[.comment comment], rfl, .nil⟩
  exact first.seq rest

theorem emits_forM {β : Type} {f : β → Print} {g : β → List (Entry Bytes Label)} (xs : List β)
    (each : ∀ x ∈ xs, Emits (f x) (g x)) : Emits (xs.forM f) (xs.flatMap g) := by
  induction xs with
  | nil => exact emits_nothing
  | cons x xs ih =>
      rw [List.flatMap_cons]
      exact (each x (List.mem_cons_self ..)).seq
        (ih (fun y member => each y (List.mem_cons_of_mem x member)))

theorem emits_within (label : Label) (inner : Emits body entries) :
    Emits (inHierarchy label body) (within label entries) := by
  intro s
  obtain ⟨added, ran, related⟩ := inner { s with hierarchy := s.hierarchy ++ [label.text] }
  refine ⟨added, ?_, ?_⟩
  · have pushed : addToHierarchy label.text s =
        some ((), { s with hierarchy := s.hierarchy ++ [label.text] }) := rfl
    rw [inHierarchy, seq_some pushed, seq_some ran]
    simp [removeFromHierarchy]
  · rw [within, List.forall₂_map_left_iff]
    refine related.imp ?_
    rintro entry sample ⟨name, labels⟩
    exact ⟨name, by simp [labels]⟩

end Rules

/-! ## What each function emits -/

def cStateEntries : List (Entry Bytes Label) :=
  (List.range (maxCState + 1)).flatMap (fun i => within (.index i) (counterEntries residencyNames))

def basicEntries : List (Entry Bytes Label) :=
  within (.source .core)
    (counterEntries coreCounterNames ++ (cStateEntries ++ counterEntries memoryCounterNames))

def uncoreEntries (nearMemory : Bool) : List (Entry Bytes Label) :=
  within (.source .uncore) (counterEntries (uncoreCounterNames nearMemory) ++ cStateEntries)

/-- The entries of a thread, below its own label. -/
def threadBody : List (Entry Bytes Label) := counterEntries [ascii "OS ID"] ++ basicEntries

def coreEntries (c : Topology.Core) : List (Entry Bytes Label) :=
  within (.core c.socketUniqueCoreID)
    (c.threads.flatMap (fun ht => within (.thread ht.threadID) threadBody))

def socketBody (nearMemory : Bool) (s : Socket) : List (Entry Bytes Label) :=
  s.cores.flatMap coreEntries ++ (uncoreEntries nearMemory ++ within (.aggregate .socket) basicEntries)

def socketEntries (nearMemory : Bool) (s : Socket) : List (Entry Bytes Label) :=
  within (.socket s.socketID) (socketBody nearMemory s)

def acceleratorEntries : Option Accelerators → List (Entry Bytes Label)
  | none => []
  | some accs => within (.source .accel) ((List.range accs.numOfDevs).flatMap (fun i =>
      within (.device accs.accel i) (counterEntries (accs.counterNames.map remove_string_inside_use))))

def linkBody (links : Nat) : List (Entry Bytes Label) :=
  counterEntries cxlNames ++ (List.range links).flatMap (fun j => counterEntries (linkNames j))

def linkEntries (m : Machine) : List (Entry Bytes Label) :=
  if m.isServerCPU && decide (2 ≤ m.numSockets) then
    within (.source .uncore) ((List.range m.numSockets).flatMap (fun i : Nat =>
      within (.socket i) (linkBody m.qpiLinksPerSocket)))
  else []

def pcieEntries : Option PCIe → List (Entry Bytes Label)
  | none => []
  | some col => within (.source .uncore) ((List.range col.socketCount).flatMap (fun skt : Nat =>
      within (.socket skt) (counterEntries (pcieNames col))) ++ counterEntries (pcieNames col))

def systemBody (m : Machine) : List (Entry Bytes Label) :=
  acceleratorEntries m.accelerators ++ (linkEntries m ++ (basicEntries ++
    (uncoreEntries m.nearMemoryMetricsAvailable ++ pcieEntries m.pcie)))

def systemEntries (m : Machine) (s : SystemRoot) : List (Entry Bytes Label) :=
  counterEntries [ascii "Measurement Interval in us"] ++ (counterEntries [ascii "Number of sockets"] ++
    (s.sockets.flatMap (socketEntries m.nearMemoryMetricsAvailable) ++
      within (.aggregate .system) (systemBody m)))

section Emissions

variable (m : Machine)

theorem emits_counters (names : List Bytes) : Emits (printCounters m names) (counterEntries names) := by
  rw [counterEntries, plain, List.map_map, List.map_eq_flatMap]
  refine emits_forM names (fun name _ s => ?_)
  have got : (get : StateT PrometheusPrinter Option PrometheusPrinter) s = some (s, s) := rfl
  rw [seq_some got]
  exact emits_counter name (m.value s.hierarchy name) s

theorem emits_cStates : Emits (printCStates m) cStateEntries :=
  emits_forM _ (fun i _ => emits_within (.index i) (emits_counters m residencyNames))

theorem emits_basic : Emits (printBasicCounterState m) basicEntries :=
  emits_within (.source .core) ((emits_counters m coreCounterNames).seq
    ((emits_cStates m).seq (emits_counters m memoryCounterNames)))

theorem emits_uncore :
    Emits (printUncoreCounterState m) (uncoreEntries m.nearMemoryMetricsAvailable) :=
  emits_within (.source .uncore) ((emits_counters m _).seq (emits_cStates m))

theorem emits_core (c : Topology.Core) : Emits (dispatchCore m c) (coreEntries c) := by
  refine emits_within (.core c.socketUniqueCoreID) (emits_forM _ (fun ht _ => ?_))
  exact emits_within (.thread ht.threadID)
    ((emits_counter (ascii "OS ID") (decimalInt ht.osID)).seq (emits_basic m))

theorem emits_socket (s : Socket) :
    Emits (dispatchSocket m s) (socketEntries m.nearMemoryMetricsAvailable s) := by
  have cores := emits_forM s.cores (fun c _ => emits_core m c)
  have uncore := emits_after_comment (ascii "Uncore Counters Socket " ++ decimalInt s.socketID)
    (emits_uncore m)
  have aggregate := emits_within (.aggregate .socket)
    (emits_after_comment (ascii "Core Counters Aggregate Socket " ++ decimalInt s.socketID)
      (emits_basic m))
  exact emits_within (.socket s.socketID)
    (emits_after_comment (ascii "Core Counters Socket " ++ decimalInt s.socketID)
      (cores.seq (uncore.seq aggregate)))

theorem emits_accelerators : Emits (printAccelerators m) (acceleratorEntries m.accelerators) := by
  rw [printAccelerators]
  rcases m.accelerators with - | accs
  · exact emits_nothing
  · refine emits_after_comment (ascii "Accelerator Counters") ?_
    exact emits_within (.source .accel)
      (emits_forM _ (fun i _ => emits_within (.device accs.accel i) (emits_counters m _)))

theorem emits_links : Emits (printLinks m) (linkEntries m) := by
  rw [printLinks, linkEntries]
  split
  · refine emits_after_comment (ascii "UPI/QPI Counters") ?_
    refine emits_within (.source .uncore) (emits_forM _ (fun i _ => ?_))
    exact emits_within (.socket i)
      ((emits_counters m cxlNames).seq (emits_forM _ (fun j _ => emits_counters m (linkNames j))))
  · exact emits_nothing

theorem emits_pcie : Emits (printPCIeCounterState m) (pcieEntries m.pcie) := by
  rw [printPCIeCounterState]
  rcases m.pcie with - | col
  · exact emits_nothing
  · exact emits_within (.source .uncore)
      ((emits_forM _ (fun (skt : Nat) _ =>
        emits_within (.socket skt) (emits_counters m (pcieNames col)))).seq
        (emits_counters m (pcieNames col)))

theorem emits_aggregate : Emits (do
    printComment (ascii "Core Counters Aggregate System")
    printBasicCounterState m
    printComment (ascii "Uncore Counters Aggregate System")
    printUncoreCounterState m
    printComment (ascii "PCIe Bandwidth Counters")
    printPCIeCounterState m)
    (basicEntries ++ (uncoreEntries m.nearMemoryMetricsAvailable ++ pcieEntries m.pcie)) := by
  refine emits_after_comment _ ((emits_basic m).seq ?_)
  refine emits_after_comment _ ((emits_uncore m).seq ?_)
  exact emits_after_comment _ (emits_pcie m)

theorem emits_system (s : SystemRoot) : Emits (dispatchSystemRoot m s) (systemEntries m s) := by
  refine (emits_counters m _).seq ((emits_counter _ _).seq ?_)
  refine (emits_forM s.sockets (fun socket _ => emits_socket m socket)).seq ?_
  exact emits_within (.aggregate .system)
    ((emits_accelerators m).seq ((emits_links m).seq (emits_aggregate m)))

end Emissions

end Pcm.Prometheus
