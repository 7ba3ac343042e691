import Pcm.Lib.Decimal
import Pcm.PrometheusSamples

/-!
# No two samples with the same name and labels

The names that are printed literally differ, labels with different contents have different texts, and
every part of the tree has a label that tells it from its siblings. What is left is that the names and
numbers that come from outside differ as they are printed.
-/

namespace Pcm.Prometheus

open StdString Pcm.Topology Labelled

/-! ## Texts of labels -/

/-- A label without its number, or what it says of the source or the aggregate. -/
inductive Kind
  | socket | core | thread | index | source | aggregate
  | device (accel : AccelIP)

def Label.kind : Label → Kind
  | .socket _ => .socket
  | .core _ => .core
  | .thread _ => .thread
  | .index _ => .index
  | .source _ => .source
  | .aggregate _ => .aggregate
  | .device accel _ => .device accel

/-- The first three characters of its labels. -/
def Kind.tag : Kind → Bytes
  | .socket => [115, 111, 99]
  | .core => [99, 111, 114]
  | .thread => [116, 104, 114]
  | .index => [105, 110, 100]
  | .source => [115, 111, 117]
  | .aggregate => [97, 103, 103]
  | .device .iaa => [105, 97, 97]
  | .device .dsa => [100, 115, 97]
  | .device .qat => [113, 97, 116]
  | .device .max => [105, 100, 61]

theorem Kind.tag_injective : Function.Injective Kind.tag := by
  intro a b
  rcases a with - | - | - | - | - | - | (- | - | - | -) <;>
    rcases b with - | - | - | - | - | - | (- | - | - | -) <;> simp [Kind.tag]

theorem Label.take_text (label : Label) : label.text.take 3 = label.kind.tag := by
  cases label with
  | source of => cases of <;> rfl
  | aggregate of => cases of <;> rfl
  | device accel i => cases accel <;> rfl
  | _ => rfl

theorem quoted_cancel {head a b : Bytes} (same : head ++ (a ++ [34]) = head ++ (b ++ [34])) : a = b :=
  List.append_cancel_right (List.append_cancel_left same)

/-- Different labels have different texts. -/
theorem Label.text_injective : Function.Injective Label.text := by
  intro a b same
  have kinds : a.kind = b.kind := by
    apply Kind.tag_injective
    rw [← take_text, ← take_text, same]
  -- only two labels of the same kind are left in each case
  cases a with
  | socket id =>
      cases b with
      | socket id' => exact congrArg socket (decimalInt_injective (quoted_cancel same))
      | _ => exact Kind.noConfusion kinds
  | core id =>
      cases b with
      | core id' => exact congrArg core (decimalInt_injective (quoted_cancel same))
      | _ => exact Kind.noConfusion kinds
  | thread id =>
      cases b with
      | thread id' => exact congrArg thread (decimalInt_injective (quoted_cancel same))
      | _ => exact Kind.noConfusion kinds
  | index i =>
      cases b with
      | index j => exact congrArg index (decimal_injective (quoted_cancel same))
      | _ => exact Kind.noConfusion kinds
  | source of =>
      cases b with
      | source of' =>
          revert same
          cases of <;> cases of' <;> decide
      | _ => exact Kind.noConfusion kinds
  | aggregate of =>
      cases b with
      | aggregate of' =>
          revert same
          cases of <;> cases of' <;> decide
      | _ => exact Kind.noConfusion kinds
  | device accel i =>
      cases b with
      | device accel' j =>
          obtain rfl : accel = accel' := Kind.device.inj kinds
          have texts := List.append_cancel_left same
          exact congrArg (device accel) (decimal_injective (quoted_cancel texts))
      | _ => exact Kind.noConfusion kinds

/-! ## Names that are printed -/

theorem nodup_basicNames : ((coreCounterNames ++ (residencyNames ++ memoryCounterNames)).map
    replaceIllegalCharsWithUnderbar).Nodup := by decide

theorem nodup_uncoreNames (nearMemory : Bool) : ((uncoreCounterNames nearMemory ++ residencyNames).map
    replaceIllegalCharsWithUnderbar).Nodup := by
  cases nearMemory <;> decide

/-- The names of the link counters differ in their beginnings. -/
theorem nodup_linkBegins : ((cxlNames ++ linkLiterals).map
    (fun name => (replaceIllegalCharsWithUnderbar name).take 13)).Nodup := by decide

theorem linkLiterals_long : ∀ literal ∈ linkLiterals, 13 ≤ literal.length := by decide

theorem take_ne_pcie (nearMemory : Bool) : ∀ name ∈ uncoreCounterNames nearMemory ++
    (residencyNames ++ (cxlNames ++ linkLiterals)),
      (replaceIllegalCharsWithUnderbar name).take 5 ≠ ascii "PCIe_" := by
  cases nearMemory <;> decide

theorem rewrite_append (a b : Bytes) : replaceIllegalCharsWithUnderbar (a ++ b) =
    replaceIllegalCharsWithUnderbar a ++ replaceIllegalCharsWithUnderbar b := List.map_append

/-- Digits are not replaced. -/
theorem rewrite_decimal (n : Nat) : replaceIllegalCharsWithUnderbar (decimal n) = decimal n := by
  refine (List.map_congr_left (fun c member => ?_)).trans (List.map_id _)
  have digit := isdigit_of_mem_decimal member
  refine if_neg (fun replaced => ?_)
  rcases Bool.or_eq_true _ _ |>.mp replaced with dash | space
  · rw [of_decide_eq_true dash] at digit
    exact absurd digit (by decide)
  · rw [of_decide_eq_true space] at digit
    exact absurd digit (by decide)

def linkTexts (j : Nat) : List Bytes :=
  linkLiterals.map (fun literal => replaceIllegalCharsWithUnderbar literal ++ decimal j)

theorem linkTexts_eq (j : Nat) : (linkNames j).map replaceIllegalCharsWithUnderbar = linkTexts j := by
  rw [linkNames, linkTexts, List.map_map]
  refine List.map_congr_left (fun literal _ => ?_)
  rw [Function.comp_apply, rewrite_append, rewrite_decimal]

/-- The beginning of a literal is the beginning of the name. -/
theorem take_linkText {n j : Nat} {name : Bytes} (short : n ≤ 13) (member : name ∈ linkTexts j) :
    ∃ literal ∈ linkLiterals, name = replaceIllegalCharsWithUnderbar literal ++ decimal j ∧
      name.take n = (replaceIllegalCharsWithUnderbar literal).take n := by
  obtain ⟨literal, isLiteral, rfl⟩ := List.mem_map.mp member
  refine ⟨literal, isLiteral, rfl, List.take_append_of_le_length ?_⟩
  rw [replaceIllegalCharsWithUnderbar, List.length_map]
  exact short.trans (linkLiterals_long literal isLiteral)

theorem linkLiterals_begin {a b : Bytes} (isA : a ∈ linkLiterals) (isB : b ∈ cxlNames ++ linkLiterals)
    (same : (replaceIllegalCharsWithUnderbar a).take 13 =
      (replaceIllegalCharsWithUnderbar b).take 13) : a = b :=
  List.inj_on_of_nodup_map nodup_linkBegins (List.mem_append_right _ isA) isB same

theorem nodup_linkTexts (j : Nat) : (linkTexts j).Nodup := by
  refine List.Nodup.map_on (fun a isA b isB same => ?_) ?_
  · refine linkLiterals_begin isA (List.mem_append_right _ isB) ?_
    rw [List.append_cancel_right same]
  · exact nodup_linkBegins.of_map.of_append_right

theorem disjoint_linkTexts {j k : Nat} (different : j ≠ k) : (linkTexts j).Disjoint (linkTexts k) := by
  intro name first second
  obtain ⟨a, isA, shapeA, takeA⟩ := take_linkText (le_refl 13) first
  obtain ⟨b, isB, shapeB, takeB⟩ := take_linkText (le_refl 13) second
  obtain rfl : a = b := linkLiterals_begin isA (List.mem_append_right _ isB)
    (takeA.symm.trans takeB)
  exact different (decimal_injective (List.append_cancel_left (shapeA.symm.trans shapeB)))

/-! ## Labels that are absent -/

section Absent

variable {label : Label}

theorem lacks_cStates (noIndex : ∀ i, label ≠ .index i) : Lacks label cStateEntries :=
  lacks_flatMap (fun i _ => (lacks_plain _).within (noIndex i))

theorem lacks_basic (noSource : label ≠ .source .core) (noIndex : ∀ i, label ≠ .index i) :
    Lacks label basicEntries :=
  ((lacks_plain _).append ((lacks_cStates noIndex).append (lacks_plain _))).within noSource

theorem lacks_uncore {nearMemory : Bool} (noSource : label ≠ .source .uncore)
    (noIndex : ∀ i, label ≠ .index i) : Lacks label (uncoreEntries nearMemory) :=
  ((lacks_plain _).append (lacks_cStates noIndex)).within noSource

theorem lacks_thread (noSource : label ≠ .source .core) (noIndex : ∀ i, label ≠ .index i) :
    Lacks label threadBody :=
  (lacks_plain _).append (lacks_basic noSource noIndex)

theorem lacks_core (noSource : label ≠ .source .core) (noIndex : ∀ i, label ≠ .index i)
    (noThread : ∀ id, label ≠ .thread id) (noCore : ∀ id, label ≠ .core id) (c : Topology.Core) :
    Lacks label (coreEntries c) :=
  (lacks_flatMap (fun ht _ =>
    (lacks_thread noSource noIndex).within (noThread ht.threadID))).within (noCore c.socketUniqueCoreID)

theorem lacks_socketBody {nearMemory : Bool} (noSource : ∀ source, label ≠ .source source)
    (noIndex : ∀ i, label ≠ .index i) (noThread : ∀ id, label ≠ .thread id)
    (noCore : ∀ id, label ≠ .core id) (noAggregate : label ≠ .aggregate .socket) (s : Socket) :
    Lacks label (socketBody nearMemory s) := by
  have cores := lacks_flatMap (fun c (_ : c ∈ s.cores) =>
    lacks_core (noSource .core) noIndex noThread noCore c)
  exact cores.append ((lacks_uncore (noSource .uncore) noIndex).append
    ((lacks_basic (noSource .core) noIndex).within noAggregate))

theorem lacks_accelerators (noSource : label ≠ .source .accel)
    (noDevice : ∀ accel i, label ≠ .device accel i) (accelerators : Option Accelerators) :
    Lacks label (acceleratorEntries accelerators) := by
  rcases accelerators with - | accs
  · exact fun _ member => absurd member List.not_mem_nil
  · exact (lacks_flatMap (fun i _ => (lacks_plain _).within (noDevice accs.accel i))).within noSource

theorem lacks_links (noSource : label ≠ .source .uncore) (noSocket : ∀ id, label ≠ .socket id)
    (m : Machine) : Lacks label (linkEntries m) := by
  rw [linkEntries]
  split
  · refine (lacks_flatMap (fun (i : Nat) _ => Lacks.within (noSocket i) ?_)).within noSource
    exact (lacks_plain _).append (lacks_flatMap (fun j _ => lacks_plain _))
  · exact fun _ member => absurd member List.not_mem_nil

theorem lacks_pcie (noSource : label ≠ .source .uncore) (noSocket : ∀ id, label ≠ .socket id)
    (pcie : Option PCIe) : Lacks label (pcieEntries pcie) := by
  rcases pcie with - | col
  · exact fun _ member => absurd member List.not_mem_nil
  · exact ((lacks_flatMap (fun (skt : Nat) _ =>
      (lacks_plain _).within (noSocket skt))).append (lacks_plain _)).within noSource

end Absent

/-! ## The counters of a thread, of a core and of a socket -/

theorem distinct_counters {names : List Bytes}
    (nodup : (names.map replaceIllegalCharsWithUnderbar).Nodup) : Distinct (counterEntries names) :=
  distinct_plain nodup

theorem names_counters (all : List Bytes) :
    names (counterEntries all) = all.map replaceIllegalCharsWithUnderbar := names_plain _

theorem mem_names_cStates {name : Bytes} (member : name ∈ names cStateEntries) :
    name ∈ residencyNames.map replaceIllegalCharsWithUnderbar := by
  rw [cStateEntries, names_flatMap, List.mem_flatMap] at member
  obtain ⟨i, -, member⟩ := member
  rwa [names_within, names_counters] at member

theorem distinct_cStates : Distinct cStateEntries := by
  have indices : ((List.range (maxCState + 1)).map Label.index).Nodup := by decide
  have names : (residencyNames.map replaceIllegalCharsWithUnderbar).Nodup := by
    have all := nodup_uncoreNames true
    rw [List.map_append] at all
    exact all.of_append_right
  exact distinct_flatMap_within indices (fun _ _ => distinct_counters names)
    (fun _ _ _ _ => lacks_plain _)

theorem apart_counters {some others : List Bytes}
    (nodup : ((some ++ others).map replaceIllegalCharsWithUnderbar).Nodup) :
    Apart (counterEntries some) (counterEntries others) := by
  rw [List.map_append] at nodup
  refine apart_of_names (fun name member again => ?_)
  rw [names_counters] at member again
  exact List.disjoint_of_nodup_append nodup member again

/-- Counters that are not residencies, with the residencies. -/
theorem apart_cStates {all : List Bytes}
    (nodup : ((all ++ residencyNames).map replaceIllegalCharsWithUnderbar).Nodup) :
    Apart (counterEntries all) cStateEntries := by
  rw [List.map_append] at nodup
  refine apart_of_names (fun name member isState => ?_)
  rw [names_counters] at member
  exact List.disjoint_of_nodup_append nodup member (mem_names_cStates isState)

theorem distinct_basic : Distinct basicEntries := by
  have split := nodup_basicNames
  rw [List.map_append] at split
  have tail := split.of_append_right
  rw [List.map_append] at tail
  have core : Distinct (counterEntries coreCounterNames) := distinct_counters split.of_append_left
  have memory : Distinct (counterEntries memoryCounterNames) := distinct_counters tail.of_append_right
  have coreStates : Apart (counterEntries coreCounterNames) cStateEntries := by
    refine apart_cStates (nodup_basicNames.sublist (List.Sublist.map _ ?_))
    exact (List.Sublist.refl _).append (List.sublist_append_left ..)
  have coreMemory : Apart (counterEntries coreCounterNames) (counterEntries memoryCounterNames) := by
    refine apart_counters (nodup_basicNames.sublist (List.Sublist.map _ ?_))
    exact (List.Sublist.refl _).append (List.sublist_append_right ..)
  have memoryStates : Apart (counterEntries memoryCounterNames) cStateEntries := by
    refine apart_cStates ?_
    rw [List.map_append]
    exact List.nodup_append_comm.mp tail
  have body := core.append (distinct_cStates.append memory memoryStates.symm)
    (coreStates.append coreMemory)
  refine body.within ((lacks_plain _).append ((lacks_cStates ?_).append (lacks_plain _)))
  exact fun _ => Label.noConfusion

theorem distinct_uncore (nearMemory : Bool) : Distinct (uncoreEntries nearMemory) := by
  have split := nodup_uncoreNames nearMemory
  rw [List.map_append] at split
  have body := (distinct_counters split.of_append_left).append distinct_cStates
    (apart_cStates (nodup_uncoreNames nearMemory))
  refine body.within ((lacks_plain _).append (lacks_cStates ?_))
  exact fun _ => Label.noConfusion

theorem distinct_thread : Distinct threadBody := by
  have osID : Distinct (counterEntries [ascii "OS ID"]) := distinct_counters (List.nodup_singleton _)
  exact osID.append distinct_basic (apart_within (lacks_plain _)).symm

/-- The core and thread ids that a socket prints. -/
def threadKeys (s : Socket) : List (Int × Int) :=
  s.cores.flatMap (fun c => c.threads.map (fun ht => (c.socketUniqueCoreID, ht.threadID)))

def keyEntries (key : Int × Int) : List (Entry Bytes Label) :=
  within (.core key.1) (within (.thread key.2) threadBody)

theorem within_flatMap {β : Type} (label : Label) (g : β → List (Entry Bytes Label)) (bs : List β) :
    within label (bs.flatMap g) = bs.flatMap (fun b => within label (g b)) := List.map_flatMap

theorem coreEntries_eq (c : Topology.Core) : coreEntries c =
    (c.threads.map (fun ht => (c.socketUniqueCoreID, ht.threadID))).flatMap keyEntries := by
  rw [coreEntries, within_flatMap, List.flatMap_map]
  rfl

theorem cores_eq (s : Socket) : s.cores.flatMap coreEntries = (threadKeys s).flatMap keyEntries := by
  rw [threadKeys, List.flatMap_assoc]
  exact congrArg (fun g => s.cores.flatMap g) (funext coreEntries_eq)

/-- Two threads of a socket differ in the core or in the thread. -/
theorem apart_keys {a b : Int × Int} (different : a ≠ b) : Apart (keyEntries a) (keyEntries b) := by
  by_cases cores : a.1 = b.1
  · have threads : a.2 ≠ b.2 := fun same => different (Prod.ext cores same)
    refine apart_within_within (Lacks.within Label.noConfusion (Lacks.within ?_ ?_))
    · exact fun same => threads (Label.thread.inj same)
    · exact lacks_thread Label.noConfusion (fun _ => Label.noConfusion)
  · refine apart_within (Lacks.within ?_ (Lacks.within Label.noConfusion ?_))
    · exact fun same => cores (Label.core.inj same)
    · exact lacks_thread Label.noConfusion (fun _ => Label.noConfusion)

theorem distinct_key (key : Int × Int) : Distinct (keyEntries key) := by
  have fresh : Lacks (.thread key.2) threadBody :=
    lacks_thread Label.noConfusion (fun _ => Label.noConfusion)
  refine (distinct_thread.within fresh).within (Lacks.within Label.noConfusion ?_)
  exact lacks_thread Label.noConfusion (fun _ => Label.noConfusion)

theorem distinct_cores {s : Socket} (threads : (threadKeys s).Nodup) :
    Distinct (s.cores.flatMap coreEntries) := by
  rw [cores_eq]
  exact distinct_flatMap (fun key _ => distinct_key key) (threads.imp apart_keys)

theorem distinct_socketBody (nearMemory : Bool) {s : Socket} (threads : (threadKeys s).Nodup) :
    Distinct (socketBody nearMemory s) := by
  have uncore : Lacks (.source .uncore) (s.cores.flatMap coreEntries) :=
    lacks_flatMap (fun c _ => lacks_core (by decide) (fun _ => Label.noConfusion)
      (fun _ => Label.noConfusion) (fun _ => Label.noConfusion) c)
  have aggregate : Lacks (.aggregate .socket) (s.cores.flatMap coreEntries) :=
    lacks_flatMap (fun c _ => lacks_core Label.noConfusion (fun _ => Label.noConfusion)
      (fun _ => Label.noConfusion) (fun _ => Label.noConfusion) c)
  have total : Distinct (within (.aggregate .socket) basicEntries) :=
    distinct_basic.within (lacks_basic Label.noConfusion (fun _ => Label.noConfusion))
  refine (distinct_cores threads).append ((distinct_uncore nearMemory).append total ?_) ?_
  · exact (apart_within (lacks_uncore Label.noConfusion (fun _ => Label.noConfusion))).symm
  · exact (apart_within uncore).symm.append (apart_within aggregate).symm

theorem distinct_sockets (nearMemory : Bool) {sockets : List Socket}
    (ids : (sockets.map Socket.socketID).Nodup) (threads : ∀ s ∈ sockets, (threadKeys s).Nodup) :
    Distinct (sockets.flatMap (socketEntries nearMemory)) := by
  have labels : (sockets.map (fun s => Label.socket s.socketID)).Nodup := by
    have mapped := ids.map (f := Label.socket) (fun _ _ same => Label.socket.inj same)
    rwa [List.map_map] at mapped
  refine distinct_flatMap_within labels (fun s isIn => distinct_socketBody nearMemory (threads s isIn)) ?_
  exact fun _ _ s _ => lacks_socketBody (fun _ => Label.noConfusion) (fun _ => Label.noConfusion)
    (fun _ => Label.noConfusion) (fun _ => Label.noConfusion) Label.noConfusion s

/-! ## The counters of the whole system -/

theorem nodup_labels {f : Nat → Label} (injective : Function.Injective f) (n : Nat) :
    ((List.range n).map f).Nodup := List.nodup_range.map injective

theorem distinct_accelerators {accelerators : Option Accelerators}
    (names : ∀ accs, accelerators = some accs →
      (accs.counterNames.map (replaceIllegalCharsWithUnderbar ∘ remove_string_inside_use)).Nodup) :
    Distinct (acceleratorEntries accelerators) := by
  rcases accelerators with - | accs
  · exact List.Pairwise.nil
  · have counters : Distinct (counterEntries (accs.counterNames.map remove_string_inside_use)) := by
      refine distinct_counters ?_
      rw [List.map_map]
      exact names accs rfl
    have devices := distinct_flatMap_within
      (nodup_labels (f := .device accs.accel) (fun _ _ same => (Label.device.inj same).2) accs.numOfDevs)
      (fun _ _ => counters) (fun _ _ _ _ => lacks_plain _)
    refine devices.within (lacks_flatMap (fun i _ => (lacks_plain _).within Label.noConfusion))

theorem linkBody_eq (links : Nat) : linkBody links = plain
    (cxlNames.map replaceIllegalCharsWithUnderbar ++ (List.range links).flatMap linkTexts) := by
  have texts : (fun j => counterEntries (linkNames j)) = fun j => plain (linkTexts j) :=
    funext (fun j => congrArg plain (linkTexts_eq j))
  rw [linkBody, texts, plain, List.map_append, List.map_flatMap]
  rfl

theorem distinct_linkBody (links : Nat) : Distinct (linkBody links) := by
  rw [linkBody_eq]
  refine distinct_plain (List.Nodup.append ?_ ?_ ?_)
  · refine List.Nodup.of_map (fun name => name.take 13) ?_
    rw [List.map_map]
    have begins := nodup_linkBegins
    rw [List.map_append] at begins
    exact begins.of_append_left
  · refine List.nodup_flatMap.mpr ⟨fun j _ => nodup_linkTexts j, ?_⟩
    exact List.nodup_range.imp disjoint_linkTexts
  · intro name isCxl member
    obtain ⟨cxl, isName, rfl⟩ := List.mem_map.mp isCxl
    obtain ⟨j, -, member⟩ := List.mem_flatMap.mp member
    obtain ⟨literal, isLiteral, -, begin⟩ := take_linkText (le_refl 13) member
    have same := linkLiterals_begin isLiteral (List.mem_append_left _ isName) begin.symm
    have disjoint := List.disjoint_of_nodup_append nodup_linkBegins.of_map
    exact disjoint isName (same ▸ isLiteral)

theorem distinct_links (m : Machine) : Distinct (linkEntries m) := by
  rw [linkEntries]
  split
  · have sockets := distinct_flatMap_within
      (nodup_labels (f := fun i : Nat => .socket i)
        (fun _ _ same => Int.ofNat.inj (Label.socket.inj same)) m.numSockets)
      (fun _ _ => distinct_linkBody m.qpiLinksPerSocket)
      (fun _ _ _ _ => by rw [linkBody_eq]; exact lacks_plain _)
    refine sockets.within (lacks_flatMap (fun i _ => ?_))
    rw [linkBody_eq]
    exact (lacks_plain _).within Label.noConfusion
  · exact List.Pairwise.nil

theorem distinct_pcie {pcie : Option PCIe} (names : ∀ col, pcie = some col →
    ((pcieNames col).map replaceIllegalCharsWithUnderbar).Nodup) : Distinct (pcieEntries pcie) := by
  rcases pcie with - | col
  · exact List.Pairwise.nil
  · have counters : Distinct (counterEntries (pcieNames col)) := distinct_counters (names col rfl)
    have sockets := distinct_flatMap_within
      (nodup_labels (f := fun skt : Nat => .socket skt)
        (fun _ _ same => Int.ofNat.inj (Label.socket.inj same)) col.socketCount)
      (fun _ _ => counters) (fun _ _ _ _ => lacks_plain _)
    refine (sockets.append counters (apart_flatMap (fun _ _ => apart_within (lacks_plain _)))).within ?_
    exact (lacks_flatMap (fun _ _ => (lacks_plain _).within Label.noConfusion)).append (lacks_plain _)

/-- The names of the PCIe counters begin in the same way. -/
theorem take_pcie {pcie : Option PCIe} {name : Bytes} (member : name ∈ names (pcieEntries pcie)) :
    name.take 5 = ascii "PCIe_" := by
  rcases pcie with - | col
  · exact absurd member List.not_mem_nil
  · have isCounter : name ∈ (pcieNames col).map replaceIllegalCharsWithUnderbar := by
      rw [pcieEntries, names_within, names_append, names_flatMap, List.mem_append,
        names_counters] at member
      rcases member with ofSocket | ofSystem
      · obtain ⟨skt, -, inside⟩ := List.mem_flatMap.mp ofSocket
        rwa [names_within, names_counters] at inside
      · exact ofSystem
    obtain ⟨original, isName, rfl⟩ := List.mem_map.mp isCounter
    simp only [pcieNames, List.mem_cons, List.mem_map] at isName
    rcases isName with rfl | rfl | ⟨event, -, rfl⟩
    · decide
    · decide
    · rw [rewrite_append]
      exact List.take_left' (by decide)

theorem apart_uncore_pcie (nearMemory : Bool) (pcie : Option PCIe) :
    Apart (uncoreEntries nearMemory) (pcieEntries pcie) := by
  refine apart_of_names (fun name member isPcie => ?_)
  rw [uncoreEntries, names_within, names_append, names_counters, List.mem_append] at member
  refine absurd (take_pcie isPcie) ?_
  rcases member with counter | state
  · obtain ⟨original, isName, rfl⟩ := List.mem_map.mp counter
    exact take_ne_pcie nearMemory original (List.mem_append_left _ isName)
  · obtain ⟨original, isName, rfl⟩ := List.mem_map.mp (mem_names_cStates state)
    exact take_ne_pcie nearMemory original (List.mem_append_right _ (List.mem_append_left _ isName))

theorem apart_links_pcie (m : Machine) (pcie : Option PCIe) :
    Apart (linkEntries m) (pcieEntries pcie) := by
  rw [linkEntries]
  split
  · refine apart_of_names (fun name member isPcie => ?_)
    rw [names_within, names_flatMap] at member
    obtain ⟨i, -, member⟩ := List.mem_flatMap.mp member
    rw [names_within, linkBody_eq, names_plain, List.mem_append] at member
    refine absurd (take_pcie isPcie) ?_
    have begin (original : Bytes) (isName : original ∈ cxlNames ++ linkLiterals) :=
      take_ne_pcie true original (List.mem_append_right _ (List.mem_append_right _ isName))
    rcases member with cxl | link
    · obtain ⟨original, isName, rfl⟩ := List.mem_map.mp cxl
      exact begin original (List.mem_append_left _ isName)
    · obtain ⟨j, -, isText⟩ := List.mem_flatMap.mp link
      obtain ⟨literal, isLiteral, -, same⟩ := take_linkText (n := 5) (by decide) isText
      rw [same]
      exact begin literal (List.mem_append_right _ isLiteral)
  · exact fun _ member => absurd member List.not_mem_nil

/-- The counters of the links are those of a socket. -/
theorem apart_links_uncore (m : Machine) (nearMemory : Bool) :
    Apart (linkEntries m) (uncoreEntries nearMemory) := by
  rw [linkEntries]
  split
  · rw [within_flatMap]
    refine apart_flatMap (fun i _ => apart_within_within ?_)
    exact lacks_uncore Label.noConfusion (fun _ => Label.noConfusion)
  · exact fun _ member => absurd member List.not_mem_nil

theorem apart_links_basic (m : Machine) : Apart (linkEntries m) basicEntries := by
  rw [linkEntries]
  split
  · exact apart_within (lacks_basic (by decide) (fun _ => Label.noConfusion))
  · exact fun _ member => absurd member List.not_mem_nil

/-- The accelerators are told from the rest by their source. -/
theorem apart_accelerators (accelerators : Option Accelerators) {ys : List (Entry Bytes Label)}
    (lacks : Lacks (.source .accel) ys) : Apart (acceleratorEntries accelerators) ys := by
  rcases accelerators with - | accs
  · exact fun _ member => absurd member List.not_mem_nil
  · exact apart_within lacks

section System

variable {m : Machine}
  (accelerators : ∀ accs, m.accelerators = some accs →
    (accs.counterNames.map (replaceIllegalCharsWithUnderbar ∘ remove_string_inside_use)).Nodup)
  (events : ∀ col, m.pcie = some col → ((pcieNames col).map replaceIllegalCharsWithUnderbar).Nodup)

include accelerators events

theorem distinct_systemBody : Distinct (systemBody m) := by
  have noAccel : Lacks (.source .accel) (linkEntries m ++ (basicEntries ++
      (uncoreEntries m.nearMemoryMetricsAvailable ++ pcieEntries m.pcie))) :=
    (lacks_links (by decide) (fun _ => Label.noConfusion) m).append
      ((lacks_basic (by decide) (fun _ => Label.noConfusion)).append
        ((lacks_uncore (by decide) (fun _ => Label.noConfusion)).append
          (lacks_pcie (by decide) (fun _ => Label.noConfusion) m.pcie)))
  have noCore : Lacks (.source .core) (uncoreEntries m.nearMemoryMetricsAvailable ++ pcieEntries m.pcie) :=
    (lacks_uncore (by decide) (fun _ => Label.noConfusion)).append
      (lacks_pcie (by decide) (fun _ => Label.noConfusion) m.pcie)
  have uncore := (distinct_uncore m.nearMemoryMetricsAvailable).append (distinct_pcie events)
    (apart_uncore_pcie _ _)
  have basic := distinct_basic.append uncore (apart_within noCore)
  have links := (distinct_links m).append basic
    ((apart_links_basic m).append ((apart_links_uncore m _).append (apart_links_pcie m _)))
  exact (distinct_accelerators accelerators).append links (apart_accelerators _ noAccel)

theorem distinct_system {s : SystemRoot} (sockets : (s.sockets.map Socket.socketID).Nodup)
    (threads : ∀ socket ∈ s.sockets, (threadKeys socket).Nodup) : Distinct (systemEntries m s) := by
  have total : Distinct (within (.aggregate .system) (systemBody m)) := by
    refine (distinct_systemBody accelerators events).within ?_
    refine (lacks_accelerators Label.noConfusion (fun _ _ => Label.noConfusion) _).append ?_
    refine (lacks_links Label.noConfusion (fun _ => Label.noConfusion) m).append ?_
    refine (lacks_basic Label.noConfusion (fun _ => Label.noConfusion)).append ?_
    refine (lacks_uncore Label.noConfusion (fun _ => Label.noConfusion)).append ?_
    exact lacks_pcie Label.noConfusion (fun _ => Label.noConfusion) _
  have noSystem : Lacks (.aggregate .system)
      (s.sockets.flatMap (socketEntries m.nearMemoryMetricsAvailable)) :=
    lacks_flatMap (fun socket _ => (lacks_socketBody (fun _ => Label.noConfusion)
      (fun _ => Label.noConfusion) (fun _ => Label.noConfusion) (fun _ => Label.noConfusion)
      (by decide) socket).within Label.noConfusion)
  have tree := (distinct_sockets m.nearMemoryMetricsAvailable sockets threads).append total
    (apart_within noSystem).symm
  -- the two counters at the top have no label at all
  have unlabelled (name : Bytes) : Apart (counterEntries [name])
      (s.sockets.flatMap (socketEntries m.nearMemoryMetricsAvailable) ++
        within (.aggregate .system) (systemBody m)) :=
    (apart_flatMap (fun _ _ => apart_within (lacks_plain _))).symm.append
      (apart_within (lacks_plain _)).symm
  have single (name : Bytes) : Distinct (counterEntries [name]) :=
    distinct_counters (List.nodup_singleton _)
  have number := (single (ascii "Number of sockets")).append tree (unlabelled _)
  refine (single (ascii "Measurement Interval in us")).append number (Apart.append ?_ (unlabelled _))
  exact apart_of_names (by decide)

end System

/-! ## The samples of a scrape -/

/-- The ids by which the hardware threads are printed. -/
def printedThreads (s : SystemRoot) : List (Int × Int × Int) :=
  s.sockets.flatMap (fun socket => (threadKeys socket).map (fun key => (socket.socketID, key)))

theorem same_of_below {a b : Entry Bytes Label} {x y : Sample} (first : Below [] a x)
    (second : Below [] b y) (same : x.Same y) : a.Same b := by
  refine ⟨first.1.symm.trans (same.1.trans second.1), fun label => ?_⟩
  have labels := same.2 label.text
  rw [first.2, second.2] at labels
  simpa [Label.text_injective.eq_iff] using labels

theorem exists_below {outer : List Bytes} {entries : List (Entry Bytes Label)} {printed : List Sample}
    {sample : Sample} (related : List.Forall₂ (Below outer) entries printed)
    (member : sample ∈ printed) : ∃ entry ∈ entries, Below outer entry sample := by
  induction related with
  | nil => exact absurd member List.not_mem_nil
  | @cons entry _ entries _ below _ ih =>
      rcases List.mem_cons.mp member with rfl | later
      · exact ⟨entry, List.mem_cons_self .., below⟩
      · obtain ⟨found, isEntry, below'⟩ := ih later
        exact ⟨found, List.mem_cons_of_mem _ isEntry, below'⟩

theorem exists_sample {outer : List Bytes} {entries : List (Entry Bytes Label)} {printed : List Sample}
    {entry : Entry Bytes Label} (related : List.Forall₂ (Below outer) entries printed)
    (member : entry ∈ entries) : ∃ sample ∈ printed, Below outer entry sample := by
  induction related with
  | nil => exact absurd member List.not_mem_nil
  | @cons _ sample _ _ below _ ih =>
      rcases List.mem_cons.mp member with rfl | later
      · exact ⟨sample, List.mem_cons_self .., below⟩
      · obtain ⟨found, isSample, below'⟩ := ih later
        exact ⟨found, List.mem_cons_of_mem _ isSample, below'⟩

theorem pairwise_samples {entries : List (Entry Bytes Label)} {printed : List Sample}
    (related : List.Forall₂ (Below []) entries printed) (distinct : Distinct entries) :
    printed.Pairwise (fun a b => ¬ a.Same b) := by
  induction related with
  | nil => exact List.Pairwise.nil
  | @cons entry sample entries printed below rest ih =>
      obtain ⟨head, tail⟩ := List.pairwise_cons.mp distinct
      refine List.pairwise_cons.mpr ⟨fun other member same => ?_, ih tail⟩
      obtain ⟨entry', isEntry, below'⟩ := exists_below rest member
      exact head entry' isEntry (same_of_below below below' same)

/-- The stack of labels is empty after a scrape, and no two samples have the same metric name and the
same labels, when the ids and names differ as they are printed. -/
theorem dispatchSystemRoot_samples (m : Machine) (s : SystemRoot)
    (threads : (printedThreads s).Nodup) (sockets : (s.sockets.map Socket.socketID).Nodup)
    (events : ∀ col, m.pcie = some col →
      ((pcieNames col).map replaceIllegalCharsWithUnderbar).Nodup)
    (accelerators : ∀ accs, m.accelerators = some accs →
      (accs.counterNames.map (replaceIllegalCharsWithUnderbar ∘ remove_string_inside_use)).Nodup) :
    ∃ printed, dispatchSystemRoot m s {} = some ((), printed) ∧ printed.hierarchy = [] ∧
      (samples printed.lines).Pairwise (fun a b => ¬ a.Same b) := by
  obtain ⟨added, ran, related⟩ := emits_system m s {}
  have keys : ∀ socket ∈ s.sockets, (threadKeys socket).Nodup := fun socket isIn =>
    ((List.nodup_flatMap.mp threads).1 socket isIn).of_map
  exact ⟨_, ran, rfl, pairwise_samples related (distinct_system accelerators events sockets keys)⟩

/-- A machine with nothing but the tree. -/
def plainMachine : Machine := ⟨false, none, false, 1, 0, none, fun _ _ => [48]⟩

/-- Two sockets of one core with two threads each, and names that differ as printed. -/
theorem dispatchSystemRoot_samples_two_sockets :
    ∃ printed, dispatchSystemRoot
        ⟨true, some ⟨.dsa, 2, [ascii "Inbound(B)", ascii "Outbound(B)"]⟩, true, 2, 2,
          some ⟨[ascii "PCIRdCur", ascii "ItoM"], 2⟩, fun _ _ => [48]⟩
        ⟨[⟨0, [⟨⟨0, ⟨0, 0, 0, 0, 0, 0, 0, 0⟩⟩, [⟨1, ⟨1, 0, 0, 0, 0, 0, 0, 0⟩⟩]⟩], .server⟩,
          ⟨1, [⟨⟨2, ⟨0, 0, 0, 0, 0, 0, 1, 0⟩⟩, [⟨3, ⟨1, 0, 0, 0, 0, 0, 1, 0⟩⟩]⟩], .server⟩], []⟩ {} =
          some ((), printed) ∧ printed.hierarchy = [] ∧
      (samples printed.lines).Pairwise (fun a b => ¬ a.Same b) := by
  refine dispatchSystemRoot_samples _ _ (by decide) (by decide) ?_ ?_
  · intro col isCol
    obtain rfl := Option.some.inj isCol
    decide
  · intro accs isAccs
    obtain rfl := Option.some.inj isAccs
    decide

/-- Different threads and different names, but two samples are the same. -/
def Repeats (m : Machine) (s : SystemRoot) : Prop :=
  (printedThreads s).Nodup ∧ (∀ col, m.pcie = some col → col.eventNames.Nodup) ∧
    (∀ accs, m.accelerators = some accs → accs.counterNames.Nodup) ∧
    ∃ printed, dispatchSystemRoot m s {} = some ((), printed) ∧
      ¬ (samples printed.lines).Pairwise (fun a b => ¬ a.Same b)

theorem nodup_of_samples {entries : List (Entry Bytes Label)} {printed : List Sample}
    (related : List.Forall₂ (Below []) entries printed)
    (distinct : printed.Pairwise (fun a b => ¬ a.Same b)) : entries.Nodup := by
  induction related with
  | nil => exact List.nodup_nil
  | @cons entry sample entries printed below rest ih =>
      obtain ⟨head, tail⟩ := List.pairwise_cons.mp distinct
      refine List.nodup_cons.mpr ⟨fun again => ?_, ih tail⟩
      obtain ⟨other, isIn, below'⟩ := exists_sample rest again
      exact head other isIn ⟨below.1.trans below'.1.symm, fun label => by rw [below.2, below'.2]⟩

theorem repeats_of_entries {m : Machine} {s : SystemRoot} (threads : (printedThreads s).Nodup)
    (events : ∀ col, m.pcie = some col → col.eventNames.Nodup)
    (counters : ∀ accs, m.accelerators = some accs → accs.counterNames.Nodup)
    (twice : ¬ (systemEntries m s).Nodup) : Repeats m s := by
  obtain ⟨added, ran, related⟩ := emits_system m s {}
  exact ⟨threads, events, counters, _, ran, fun distinct => twice (nodup_of_samples related distinct)⟩

theorem not_nodup_of_twice {entries : List (Entry Bytes Label)} (i j : Nat) (less : i < j)
    (short : j < entries.length) (twice : entries[i]? = entries[j]?) : ¬ entries.Nodup :=
  fun nodup => List.nodup_iff_getElem?_ne_getElem?.mp nodup i j less short twice

/-- Two sockets that are the same. -/
theorem not_nodup_of_sockets (m : Machine) (s : Socket) : ¬ (systemEntries m ⟨[s, s], []⟩).Nodup := by
  intro nodup
  have sockets := nodup.of_append_right.of_append_right.of_append_left
  rw [List.flatMap_cons, List.flatMap_cons] at sockets
  obtain ⟨entry, inBasic⟩ : ∃ entry, entry ∈ basicEntries :=
    List.exists_mem_of_ne_nil _ (List.cons_ne_nil _ _)
  have inTotal := List.mem_map_of_mem (f := fun entry =>
    ({ entry with labels := .aggregate .socket :: entry.labels } : Entry Bytes Label)) inBasic
  have inSocket := List.mem_map_of_mem (f := fun entry =>
    ({ entry with labels := .socket s.socketID :: entry.labels } : Entry Bytes Label))
    (List.mem_append_right (s.cores.flatMap coreEntries)
      (List.mem_append_right (uncoreEntries m.nearMemoryMetricsAvailable) inTotal))
  exact List.disjoint_of_nodup_append sockets inSocket (List.mem_append_left _ inSocket)

/-- Names that differ in a dash and a space, or within parentheses, an event named as the bytes read,
and sockets of the same id. -/
theorem dispatchSystemRoot_repeats :
    Repeats { plainMachine with pcie := some ⟨[ascii "A-B", ascii "A B"], 0⟩ } ⟨[], []⟩ ∧
    Repeats { plainMachine with pcie := some ⟨[ascii "Read Bytes"], 0⟩ } ⟨[], []⟩ ∧
    Repeats { plainMachine with accelerators := some ⟨.iaa, 1, [ascii "A(x)", ascii "A(y)"]⟩ }
      ⟨[], []⟩ ∧
    Repeats plainMachine ⟨[⟨0, [], .server⟩, ⟨0, [], .server⟩], []⟩ := by
  refine ⟨?_, ?_, ?_, ?_⟩
  · refine repeats_of_entries List.nodup_nil (fun col isCol => ?_) nofun
      (not_nodup_of_twice 74 75 (by decide) (by decide) (by decide))
    obtain rfl := Option.some.inj isCol
    decide
  · refine repeats_of_entries List.nodup_nil (fun col isCol => ?_) nofun
      (not_nodup_of_twice 72 74 (by decide) (by decide) (by decide))
    obtain rfl := Option.some.inj isCol
    decide
  · refine repeats_of_entries List.nodup_nil nofun (fun accs isAccs => ?_)
      (not_nodup_of_twice 2 3 (by decide) (by decide) (by decide))
    obtain rfl := Option.some.inj isAccs
    decide
  · exact repeats_of_entries List.nodup_nil nofun nofun (not_nodup_of_sockets _ _)

end Pcm.Prometheus
