import Mathlib.Data.List.TakeWhile
import Pcm.IioRows

/-!
# Output of `pcm-iio`

Both outputs have the columns of the horizontal names in the order of the file, and for each stack the rows
of its table. A row of a vertical name has values only for those horizontal names that have as many vertical
names, and they are the values of the counters at the same place, whatever their vertical names are.
-/

namespace Pcm.Iio

open StdString

/-! ## The header -/

section Header

variable {blocks : List Block}

theorem getElem?_foldl_set {es : NameMap} {tmp : List Bytes} {j : Nat}
    (other : ∀ e ∈ es, e.2.hId ≠ j) :
    (es.foldl (fun tmp entry => tmp.set entry.2.hId entry.1) tmp)[j]? = tmp[j]? := by
  induction es generalizing tmp with
  | nil => rfl
  | cons e es ih =>
      rw [List.foldl_cons, ih (fun later member => other later (List.mem_cons_of_mem e member)),
        List.getElem?_set_ne (other e List.mem_cons_self)]

theorem getElem?_foldl_set_mem {es : NameMap} {tmp : List Bytes}
    (distinct : (es.map (fun e => e.2.hId)).Nodup) {e : Bytes × NameEntry} (member : e ∈ es)
    (less : e.2.hId < tmp.length) :
    (es.foldl (fun tmp entry => tmp.set entry.2.hId entry.1) tmp)[e.2.hId]? = some e.1 := by
  induction es generalizing tmp with
  | nil => cases member
  | cons first es ih =>
      rw [List.map_cons, List.nodup_cons] at distinct
      rw [List.foldl_cons]
      rcases List.mem_cons.mp member with rfl | later
      · rw [getElem?_foldl_set, List.getElem?_set_self less]
        intro other inside same
        exact distinct.1 (List.mem_map.mpr ⟨other, inside, same⟩)
      · exact ih distinct.2 later (by rwa [List.length_set])

theorem length_foldl_set (es : NameMap) (tmp : List Bytes) :
    (es.foldl (fun tmp entry => tmp.set entry.2.hId entry.1) tmp).length = tmp.length := by
  induction es generalizing tmp with
  | nil => rfl
  | cons e es ih => rw [List.foldl_cons, ih, List.length_set]

/-- The names in the header are in the order of the file, however the map is walked through. -/
theorem combine_eq (stackName : Bytes) {entries : NameMap} (order : entries.Perm (mapOf blocks)) :
    combine_stack_name_and_counter_names stackName entries = stackName :: blocks.map (·.1) := by
  have numbers : (mapOf blocks).map (fun e => e.2.hId) = List.range blocks.length := by
    rw [mapOf, List.map_map, List.range_eq_range']
    exact List.zipIdx_map_snd 0 blocks
  have distinct : (entries.map (fun e => e.2.hId)).Nodup := by
    rw [(order.map (fun e => e.2.hId)).nodup_iff, numbers]
    exact List.nodup_range
  have length : entries.length = blocks.length := by rw [order.length_eq, length_mapOf]
  rw [combine_stack_name_and_counter_names]
  congr 1
  refine List.ext_getElem? (fun j => ?_)
  rcases here : blocks[j]? with - | block
  · have long := List.getElem?_eq_none_iff.mp here
    rw [List.getElem?_map, here, List.getElem?_eq_none]
    · rfl
    · rw [length_foldl_set, List.length_replicate, length]
      exact long
  · have inMap : (block.1, { hId := j, vNames := block.2 }) ∈ mapOf blocks :=
      List.mem_map.mpr ⟨(block, j), List.mk_mem_zipIdx_iff_getElem?.mpr here, rfl⟩
    have less := (List.getElem?_eq_some_iff.mp here).1
    rw [List.getElem?_map, here]
    refine getElem?_foldl_set_mem distinct (order.mem_iff.mpr inMap) ?_
    rwa [List.length_replicate, length]

end Header

/-! ## Runs of the builders -/

section Runs

variable {α β : Type}

theorem mapM_ok {f : α → Except Fault β} {g : α → β} {xs : List α} (each : ∀ x ∈ xs, f x = .ok (g x)) :
    xs.mapM f = .ok (xs.map g) := by
  induction xs with
  | nil => rfl
  | cons x xs ih =>
      rw [List.mapM_cons, each x List.mem_cons_self,
        ih (fun later member => each later (List.mem_cons_of_mem x member))]
      rfl

/-- Going on with values that are all there. -/
theorem mapM_zipIdx_bind {γ : Type} {f : α → Except Fault β} {xs : List α} {ys : List β}
    (same : xs.map f = ys.map .ok) (next : Nat → β → Except Fault γ) (n : Nat) :
    (xs.zipIdx n).mapM (fun p => f p.1 >>= next p.2) = (ys.zipIdx n).mapM (fun p => next p.2 p.1) := by
  induction xs generalizing ys n with
  | nil =>
      cases ys with
      | nil => rfl
      | cons y ys => cases same
  | cons x xs ih =>
      cases ys with
      | nil => cases same
      | cons y ys =>
          obtain ⟨first, rest⟩ := List.cons.inj same
          rw [List.zipIdx_cons, List.zipIdx_cons, List.mapM_cons, List.mapM_cons, ih rest, first]
          rfl

theorem mapM_bind {γ : Type} {f : α → Except Fault β} {xs : List α} {ys : List β}
    (same : xs.map f = ys.map .ok) (next : β → Except Fault γ) :
    xs.mapM (fun x => f x >>= next) = ys.mapM next := by
  induction xs generalizing ys with
  | nil =>
      cases ys with
      | nil => rfl
      | cons y ys => cases same
  | cons x xs ih =>
      cases ys with
      | nil => cases same
      | cons y ys =>
          obtain ⟨first, rest⟩ := List.cons.inj same
          rw [List.mapM_cons, List.mapM_cons, ih rest, first]
          rfl

/-- Steps that fail in one way only. -/
theorem mapM_ite {f : α → Except Fault β} {fits : α → Prop} [DecidablePred fits] {g : α → β} {e : Fault}
    {xs : List α} (each : ∀ x ∈ xs, f x = if fits x then .ok (g x) else .error e) :
    xs.mapM f = if ∀ x ∈ xs, fits x then .ok (xs.map g) else .error e := by
  induction xs with
  | nil => rfl
  | cons x xs ih =>
      rw [List.mapM_cons, each x List.mem_cons_self,
        ih (fun later member => each later (List.mem_cons_of_mem x member))]
      by_cases here : fits x
      · by_cases later : ∀ y ∈ xs, fits y
        · rw [if_pos here, if_pos later, if_pos (List.forall_mem_cons.mpr ⟨here, later⟩)]
          rfl
        · rw [if_pos here, if_neg later, if_neg (fun all => later (List.forall_mem_cons.mp all).2)]
          rfl
      · rw [if_neg here, if_neg (fun all => here (List.forall_mem_cons.mp all).1)]
        rfl

end Runs

/-! ## The expected tables -/

section Expected

variable (blocks : List Block) (measured : Nat → Nat → Nat → Nat)

/-- The rows of a stack, with the values that were collected there. -/
def stackRows (socket : Socket) (stack : Stack) : List (Bytes × List Nat) :=
  tableRows blocks (collected blocks measured (socket.socketId, stack.unitId))

/-- The lines of a stack in the CSV output. -/
def csvLines (display : Display) (cs : List IioCounter) (socket : Socket) (stack : Stack) :
    List (List Bytes) :=
  (stackRows blocks measured socket stack).zipIdx.map (fun p =>
    csvBegin display socket stack p.2 ++ csvName display cs p.1.1 :: p.1.2.map (csvValue display))

def csvTable (display : Display) (cs : List IioCounter) (iios : List Socket) : List (List Bytes) :=
  ([display.headerDate, ascii "Socket"] ++ (if display.showRootPort then [ascii "Root Port"] else []) ++
      ascii "Name" :: ascii "Part" :: blocks.map (·.1)) ::
    iios.flatMap (fun socket => socket.stackList.flatMap (csvLines blocks measured display cs socket))

/-- A value is not wider than the name of its column. -/
def FitsCell (cell : Nat × Nat) : Prop := (unit_format cell.2).length ≤ cell.1

instance decidableFitsCell : DecidablePred FitsCell :=
  fun cell => inferInstanceAs (Decidable ((unit_format cell.2).length ≤ cell.1))

/-- The cells of a row under the names of the columns. -/
def rowCells (values : List Nat) : List (Nat × Nat) :=
  List.zipWith (fun (block : Block) value => (block.1.length, value)) blocks values

/-- All values of a stack fit. -/
def Fits (socket : Socket) (stack : Stack) : Prop :=
  ∀ row ∈ stackRows blocks measured socket stack, ∀ cell ∈ rowCells blocks row.2, FitsCell cell

instance decidableFits (socket : Socket) (stack : Stack) : Decidable (Fits blocks measured socket stack) :=
  inferInstanceAs (Decidable (∀ row ∈ stackRows blocks measured socket stack,
    ∀ cell ∈ rowCells blocks row.2, FitsCell cell))

def stackLines (socket : Socket) (stack : Stack) : List DisplayLine :=
  let headers := stack.stackName :: blocks.map (·.1)
  [.text (header_footer 32 headers), .text (title headers), .text (header_footer 124 headers)] ++
    (stackRows blocks measured socket stack).map (fun row => .row row.1 (rowCells blocks row.2)) ++
    .text (header_footer 124 headers) :: stack.devices.map .text ++ [.text (header_footer 32 headers)]

def displayTable (iios : List Socket) : List DisplayLine :=
  iios.flatMap (fun socket => .text (ascii "Socket" ++ decimal socket.socketId) ::
    socket.stackList.flatMap (stackLines blocks measured socket))

end Expected

section Builders

variable {blocks : List Block} {l : Loaded} {iios : List Socket} {measured : Nat → Nat → Nat → Nat}
  {results : Results} {entries : NameMap} {display : Display} {socket : Socket} {stack : Stack}

theorem forM_checkCell (cells : List (Nat × Nat)) :
    cells.forM checkCell = if ∀ cell ∈ cells, FitsCell cell then .ok () else .error .lengthError := by
  induction cells with
  | nil => rfl
  | cons cell cells ih =>
      have step : (cell :: cells).forM checkCell = checkCell cell >>= fun _ => cells.forM checkCell := rfl
      rw [step, ih, checkCell]
      by_cases here : FitsCell cell
      · have notWide : ¬ cell.1 < (unit_format cell.2).length := Nat.not_lt.mpr here
        rw [if_neg notWide]
        by_cases later : ∀ other ∈ cells, FitsCell other
        · rw [if_pos later, if_pos (List.forall_mem_cons.mpr ⟨here, later⟩)]
          rfl
        · rw [if_neg later, if_neg (fun all => later (List.forall_mem_cons.mp all).2)]
          rfl
      · have wide : cell.1 < (unit_format cell.2).length := Nat.lt_of_not_le here
        rw [if_pos wide, if_neg (fun all => here (List.forall_mem_cons.mp all).1)]
        rfl

theorem prepare_data_eq (values : List Nat) (stackName : Bytes) :
    prepare_data values (stackName :: blocks.map (·.1)) = rowCells blocks values := by
  rw [prepare_data, rowCells, List.tail_cons, List.zipWith_map_left]

theorem csvStack_eq {cs : List IioCounter}
    (rows : (vSort cs).map (rowData socket.socketId stack.unitId) =
      (stackRows blocks measured socket stack).map .ok) :
    csvStack display cs socket stack = .ok (csvLines blocks measured display cs socket stack) := by
  have run := mapM_zipIdx_bind rows (fun partId row => .ok (csvBegin display socket stack partId ++
    csvName display cs row.1 :: row.2.map (csvValue display))) 0
  refine Eq.trans ?_ (run.trans (mapM_ok (fun _ _ => rfl)))
  rfl

theorem csvHeader_eq (order : entries.Perm (mapOf blocks)) : csvHeader display entries =
    [display.headerDate, ascii "Socket"] ++ (if display.showRootPort then [ascii "Root Port"] else []) ++
      ascii "Name" :: ascii "Part" :: blocks.map (·.1) := by
  rw [csvHeader, combine_eq _ order]

theorem csvBuffer_eq {cs : List IioCounter} (order : entries.Perm (mapOf blocks))
    (rows : ∀ socket ∈ iios, ∀ stack ∈ socket.stackList,
      (vSort cs).map (rowData socket.socketId stack.unitId) =
        (stackRows blocks measured socket stack).map .ok) :
    csvBuffer display cs entries iios = .ok (csvTable blocks measured display cs iios) := by
  have run : (iios.flatMap (fun socket => socket.stackList.map (fun stack => (socket, stack)))).mapM
      (fun p => csvStack display cs p.1 p.2) = .ok ((iios.flatMap (fun socket => socket.stackList.map
        (fun stack => (socket, stack)))).map (fun p => csvLines blocks measured display cs p.1 p.2)) := by
    refine mapM_ok (fun p member => ?_)
    obtain ⟨socket, inIios, inSocket⟩ := List.mem_flatMap.mp member
    obtain ⟨stack, inStacks, rfl⟩ := List.mem_map.mp inSocket
    exact csvStack_eq (rows socket inIios stack inStacks)
  rw [csvBuffer, run, csvHeader_eq order, csvTable]
  simp only [bind, Except.bind, pure, Except.pure, ← List.flatMap_def, List.flatMap_assoc,
    List.flatMap_map]

/-- A row with its values, once they have been found. -/
theorem checkedRow_eq (row : Bytes × List Nat) (stackName : Bytes) :
    ((prepare_data row.2 (stackName :: blocks.map (·.1))).forM checkCell >>= fun _ =>
        Except.ok (DisplayLine.row row.1 (prepare_data row.2 (stackName :: blocks.map (·.1))))) =
      if ∀ cell ∈ rowCells blocks row.2, FitsCell cell then .ok (.row row.1 (rowCells blocks row.2))
      else .error .lengthError := by
  rw [prepare_data_eq, forM_checkCell]
  split
  · rfl
  · rfl

/-- The rows of a stack, where its values fit. -/
theorem displayStack_eq {cs : List IioCounter} (order : entries.Perm (mapOf blocks))
    (rows : (vSort cs).map (rowData socket.socketId stack.unitId) =
      (stackRows blocks measured socket stack).map .ok) :
    displayStack cs entries socket stack =
      if Fits blocks measured socket stack then .ok (stackLines blocks measured socket stack)
      else .error .lengthError := by
  have run : (vSort cs).mapM (displayRow socket stack (stack.stackName :: blocks.map (·.1))) =
      if Fits blocks measured socket stack
      then .ok ((stackRows blocks measured socket stack).map
        (fun row => .row row.1 (rowCells blocks row.2)))
      else .error .lengthError := by
    have steps := mapM_bind rows (fun row =>
      (prepare_data row.2 (stack.stackName :: blocks.map (·.1))).forM checkCell >>= fun _ =>
        Except.ok (DisplayLine.row row.1 (prepare_data row.2 (stack.stackName :: blocks.map (·.1)))))
    rw [mapM_ite (fun row _ => checkedRow_eq row stack.stackName)] at steps
    exact steps
  rw [displayStack, combine_eq stack.stackName order, run]
  split
  · rfl
  · rfl

theorem displayBuffer_eq {cs : List IioCounter} (order : entries.Perm (mapOf blocks))
    (rows : ∀ socket ∈ iios, ∀ stack ∈ socket.stackList,
      (vSort cs).map (rowData socket.socketId stack.unitId) =
        (stackRows blocks measured socket stack).map .ok) :
    displayBuffer cs entries iios =
      if ∀ socket ∈ iios, ∀ stack ∈ socket.stackList, Fits blocks measured socket stack
      then .ok (displayTable blocks measured iios) else .error .lengthError := by
  have each : ∀ socket ∈ iios, (do
      let lines ← socket.stackList.mapM (displayStack cs entries socket)
      return DisplayLine.text (ascii "Socket" ++ decimal socket.socketId) :: lines.flatten) =
        if ∀ stack ∈ socket.stackList, Fits blocks measured socket stack
        then .ok (.text (ascii "Socket" ++ decimal socket.socketId) ::
          socket.stackList.flatMap (stackLines blocks measured socket))
        else Except.error Fault.lengthError := by
    intro socket member
    rw [mapM_ite (fun stack inside => displayStack_eq order (rows socket member stack inside))]
    split
    · rfl
    · rfl
  rw [displayBuffer, mapM_ite each]
  split
  · rfl
  · rfl

/-- Where all horizontal names have the same vertical names, a row has a value for each of them, and it is
that of its own name. -/
theorem stackRows_grid {vNames : List Bytes} (some : blocks ≠ [])
    (same : ∀ block ∈ blocks, block.2 = vNames) :
    stackRows blocks measured socket stack = vNames.map (fun vName => (vName, blocks.map (fun block =>
      collected blocks measured (socket.socketId, stack.unitId) block.1 vName))) := by
  obtain ⟨first, others, rfl⟩ := List.exists_cons_of_ne_nil some
  rw [stackRows, tableRows, List.head?_cons, Option.map_some, Option.getD_some,
    same first List.mem_cons_self]
  refine List.ext_getElem? (fun i => ?_)
  rw [List.getElem?_map, List.getElem?_map, List.getElem?_zipIdx]
  rcases here : vNames[i]? with - | vName
  · rfl
  · have less := (List.getElem?_eq_some_iff.mp here).1
    have whole : (first :: others).takeWhile (fun block => i < block.2.length) = first :: others := by
      refine List.takeWhile_eq_self_iff.mpr (fun block member => ?_)
      rw [same block member]
      exact decide_eq_true less
    simp only [Option.map_some, Nat.zero_add, whole]
    congr 2
    refine List.map_congr_left (fun block member => ?_)
    rw [same block member, List.getD_eq_getElem?_getD, here]
    rfl

end Builders

/-! ## Tables of event files -/

/-- The counters of one horizontal name are as many as those of a later one, or more. -/
def Descending (blocks : List Block) : Prop := blocks.Pairwise (fun a b => b.2.length ≤ a.2.length)

instance decidableDescending (blocks : List Block) : Decidable (Descending blocks) :=
  inferInstanceAs (Decidable (blocks.Pairwise (fun a b => b.2.length ≤ a.2.length)))

/-- The tables of `pcm-iio` have the horizontal names of the file over their columns, and in the row at a
place the values of the counters that are declared at this place for their horizontal names. No counter is
missing, and only a value that is wider than its column stops the display. -/
theorem tables_of_listing {ccrType : CcrType} {content : Bytes} {l : Loaded} {blocks : List Block}
    {entries : NameMap} (loaded : load_events ccrType content = .ok l) (listing : Listing content blocks)
    (descending : Descending blocks) (order : entries.Perm l.nameMap) (iios : List Socket)
    (measured : Nat → Nat → Nat → Nat) (results : Results) (display : Display) :
    let ctrs := collectData iios measured results l.ctrs.zipIdx
    csvBuffer display ctrs entries iios = .ok (csvTable blocks measured display ctrs iios) ∧
      displayBuffer ctrs entries iios =
        (if ∀ socket ∈ iios, ∀ stack ∈ socket.stackList, Fits blocks measured socket stack
          then .ok (displayTable blocks measured iios) else .error .lengthError) ∧
      ∀ vNames : List Bytes, blocks ≠ [] → (∀ block ∈ blocks, block.2 = vNames) →
        ∀ socket ∈ iios, ∀ stack ∈ socket.stackList, stackRows blocks measured socket stack =
          vNames.map (fun vName => (vName, blocks.map (fun block =>
            collected blocks measured (socket.socketId, stack.unitId) block.1 vName))) := by
  intro ctrs
  have reads := listing.reads loaded
  rw [reads.nameMap] at order
  have rows : ∀ socket ∈ iios, ∀ stack ∈ socket.stackList,
      (vSort ctrs).map (rowData socket.socketId stack.unitId) =
        (stackRows blocks measured socket stack).map .ok := by
    intro socket inIios stack inSocket
    have inside : (socket.socketId, stack.unitId) ∈ sites iios :=
      List.mem_flatMap.mpr ⟨socket, inIios, List.mem_map.mpr ⟨stack, inSocket, rfl⟩⟩
    exact rowData_vSort reads listing.distinct descending inside
  refine ⟨csvBuffer_eq order rows, displayBuffer_eq order rows, ?_⟩
  intro vNames some same socket _ stack _
  exact stackRows_grid some same

/-- Two parts of one event, and an event that is counted once for a stack. -/
def sparseFile : Bytes :=
  ascii "hname=IB write,vname=Part0\nhname=IB write,vname=Part1\nhname=IOTLB Hit,vname=Total\n"

def sparseBlocks : List Block :=
  [(ascii "IB write", [ascii "Part0", ascii "Part1"]), (ascii "IOTLB Hit", [ascii "Total"])]

def oneSocket : List Socket := [{ socketId := 0, stackList := [{ stackName := ascii "PCIe0", unitId := 0 }] }]

def noDates : Display := { headerDate := ascii "Date", dataDate := ascii "today" }

theorem listing_sparseFile : Listing sparseFile sparseBlocks where
  names := by decide
  distinct := by decide
  nonempty := by decide

/-- What the file is read into. -/
def sparseLoaded : Loaded where
  nameMap :=
    [(ascii "IB write", { hId := 0, vNames := [ascii "Part0", ascii "Part1"] }),
      (ascii "IOTLB Hit", { hId := 1, vNames := [ascii "Total"] })]
  ctrs :=
    [{ hEventName := ascii "IB write", vEventName := ascii "Part0", hId := 0, vId := 0 },
      { hEventName := ascii "IB write", vEventName := ascii "Part1", hId := 0, vId := 1 },
      { hEventName := ascii "IOTLB Hit", vEventName := ascii "Total", hId := 1, vId := 0 }]

theorem load_sparseFile : load_events .icx sparseFile = .ok sparseLoaded := by
  decide

/-- The counters of the file with their places as values. -/
def sparseCtrs : List IioCounter :=
  collectData oneSocket (fun i _ _ => i + 1) (fun _ _ _ => 0) sparseLoaded.ctrs.zipIdx

/-- The tables of a file with an event that is counted once for a stack. -/
theorem tables_sparseFile :
    csvBuffer noDates sparseCtrs sparseLoaded.nameMap oneSocket =
        .ok (csvTable sparseBlocks (fun i _ _ => i + 1) noDates sparseCtrs oneSocket) ∧
      displayBuffer sparseCtrs sparseLoaded.nameMap oneSocket =
        .ok (displayTable sparseBlocks (fun i _ _ => i + 1) oneSocket) := by
  have tables := tables_of_listing load_sparseFile listing_sparseFile (by decide) (List.Perm.refl _)
    oneSocket (fun i _ _ => i + 1) (fun _ _ _ => 0) noDates
  rw [if_pos (by decide)] at tables
  exact ⟨tables.1, tables.2.1⟩

/-- The value of an event that is counted once for a stack is in the row of the first part, and the row of
the second part has no value for it. -/
theorem tables_sparseFile_rows : load_events .icx sparseFile = .ok sparseLoaded ∧
    (sparseLoaded.ctrs.map (fun c => (c.hEventName, c.vEventName))).Nodup ∧
    (ascii "IOTLB Hit", ascii "Part0") ∉ sparseLoaded.ctrs.map (fun c => (c.hEventName, c.vEventName)) ∧
    csvBuffer noDates sparseCtrs sparseLoaded.nameMap oneSocket =
      .ok [[ascii "Date", ascii "Socket", ascii "Name", ascii "Part", ascii "IB write", ascii "IOTLB Hit"],
        [ascii "today", ascii "Socket0", ascii "PCIe0", ascii "Part0", ascii "1", ascii "3"],
        [ascii "today", ascii "Socket0", ascii "PCIe0", ascii "Part1", ascii "2"]] := by
  refine ⟨load_sparseFile, by decide, by decide, ?_⟩
  rfl

end Pcm.Iio
