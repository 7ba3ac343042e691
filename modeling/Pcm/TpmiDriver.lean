import Pcm.EventSyntax
import Pcm.Lib.Decimal
import Pcm.Lib.Extraction

/-!
# TPMI entries of the driver

`TPMIHandleDriver` (`tpmi.cpp:216-380`) reads the registers of a feature from the text `mem_dump`, in which
the driver prints the instances one after the other, and writes them through `mem_write` by the number of
the instance. The instances without data and those whose first word is invalid are not counted.
-/

namespace Pcm.Tpmi

open StdString IStream

/-- `TPMIInvalidValue` -/
def invalidValue : Nat := 2 ^ 32 - 1

structure TPMIEntry where
  offset : Nat := 0
  data : List Nat := []
  deriving DecidableEq, Repr

/-- There is data, and its first word is not the invalid one. -/
def available (data : List Nat) : Bool := !(data.isEmpty || data.head? == some invalidValue)

/-! ## Reading `mem_dump` -/

/-- `while (iss >> std::hex >> value)` -/
def extractWords (iss : IStream) (value : Nat) : List Nat :=
  if _read : (iss.extract 32 16 value).2.fail = false then
    (iss.extract 32 16 value).1 :: extractWords (iss.extract 32 16 value).2 (iss.extract 32 16 value).1
  else []
termination_by iss.unread.length
decreasing_by exact extract_shortens _read

/-- The words of a line after the address. -/
def lineWords (line : Bytes) : List Nat := extractWords ((fresh line).extractWord []).2 0

/-- The offset in the line of an instance, after its number. -/
def instanceOffset (line : Bytes) (offset : Nat) : Nat :=
  let iss := ((((((fresh line).extractWord []).2.extractWord []).2.extractWord []).2.extractWord []).2.extractWord []).2
  (iss.extract 32 16 offset).1

def instanceMark : Bytes := ascii "TPMI Instance:"

structure Reading where
  currentEntry : TPMIEntry := {}
  entries : List TPMIEntry := []
  deriving DecidableEq, Repr

/-- The entry that was begun is one if it has data. -/
def Reading.pushed (r : Reading) : List TPMIEntry :=
  if r.currentEntry.data ≠ [] then r.entries ++ [r.currentEntry] else r.entries

/-- One line (`tpmi.cpp:276-296`). -/
def readLine (r : Reading) (line : Bytes) : Reading :=
  if instanceMark <:+: line then
    { currentEntry := { offset := instanceOffset line r.currentEntry.offset, data := [] }, entries := r.pushed }
  else
    { r with currentEntry := { r.currentEntry with data := r.currentEntry.data ++ lineWords line } }

/-- `readTPMIFile` (`tpmi.cpp:260-304`), for the content of `mem_dump`; none when it cannot be opened. -/
def readTPMIFile : Option Bytes → List TPMIEntry
  | none => []
  | some content => ((Raw.getlines 10 [] content).foldl readLine {}).pushed

/-! ## The handle -/

/-- `findValidIndex` (`tpmi.cpp:240-259`), from index `i` on. -/
def findValidIndexFrom (entryPos : Nat) : Nat → Nat → List TPMIEntry → Nat
  | _, _, [] => 0
  | i, validIndex, entry :: entries =>
      if available entry.data = false then findValidIndexFrom entryPos (i + 1) validIndex entries
      else if validIndex = entryPos then i
      else findValidIndexFrom entryPos (i + 1) (validIndex + 1) entries

def findValidIndex (entries : List TPMIEntry) (entryPos : Nat) : Nat := findValidIndexFrom entryPos 0 0 entries

/-- `nentries`, which the constructor counts (`tpmi.cpp:314-322`). -/
def getNumEntries (content : Option Bytes) : Nat := (readTPMIFile content).countP (fun e => available e.data)

/-- The two words at an offset, the low one first; none if they are not both there. -/
def wordsAt (data : List Nat) (offset : Nat) : Option Nat :=
  match data[offset / 4]?, data[offset / 4 + 1]? with
  | some low, some high => some (low + 2 ^ 32 * high)
  | _, _ => none

/-- `read64` (`tpmi.cpp:351-363`), none where it asserts that the words are there. -/
def read64 (content : Option Bytes) (offset entryPos : Nat) : Option Nat :=
  let entries := readTPMIFile content
  match entries[findValidIndex entries entryPos]? with
  | some entry => wordsAt entry.data offset
  | none => none

/-- What is written to `mem_write`: the number of an instance, an offset and a word. -/
def memWrite (i offset word : Nat) : Bytes := decimal i ++ ascii "," ++ decimal offset ++ ascii "," ++ decimal word

def memWrites (i offset val : Nat) : List Bytes :=
  [memWrite i offset (val % 2 ^ 32), memWrite i (offset + 4) (val / 2 ^ 32)]

/-- `write64` (`tpmi.cpp:364-375`) -/
def write64 (content : Option Bytes) (offset entryPos val : Nat) : List Bytes :=
  memWrites (findValidIndex (readTPMIFile content) entryPos) offset val

/-! ## The texts of the driver -/

/-- The words after an address, each with white space before it. -/
inductive WordRun : Bytes → List Nat → Prop
  | nil {blank : Bytes} (space : ∀ c ∈ blank, isspace c = true) : WordRun blank []
  | cons {blank digits text rest : Bytes} {words : List Nat} (gap : blank ≠ [])
      (space : ∀ c ∈ blank, isspace c = true) (marked : Marked 16 digits text) (some : digits ≠ [])
      (all : ∀ c ∈ digits, digitValue c < 16) (fits : digitsToNat 16 digits < 2 ^ 32) (more : WordRun rest words) :
      WordRun (blank ++ (text ++ rest)) (digitsToNat 16 digits :: words)

/-- A line of data: an address and words. -/
inductive DataLine : Bytes → List Nat → Prop
  | mk {blank address rest : Bytes} {words : List Nat} (space : ∀ c ∈ blank, isspace c = true)
      (some : address ≠ []) (solid : ∀ c ∈ address, isspace c = false) (run : WordRun rest words) :
      DataLine (blank ++ (address ++ rest)) words

/-- The line of the instance with this number. -/
def InstanceLine (number : Nat) (line : Bytes) : Prop :=
  ∃ before blank after, line = before ++ (instanceMark ++ (blank ++ (decimal number ++ after))) ∧
    (∀ c ∈ blank, isspace c = true) ∧ ∀ c ∈ after.head?, isdigit c = false

/-- Lines of data, and all their words. -/
inductive DataLines : List Bytes → List Nat → Prop
  | nil : DataLines [] []
  | cons {line : Bytes} {lines : List Bytes} {words more : List Nat} (first : DataLine line words)
      (rest : DataLines lines more) : DataLines (line :: lines) (words ++ more)

/-- The lines of instances with successive numbers, and the data of each. -/
inductive Instances : Nat → List Bytes → List (List Nat) → Prop
  | nil {number : Nat} : Instances number [] []
  | cons {number : Nat} {line : Bytes} {lines rest : List Bytes} {data : List Nat} {blocks : List (List Nat)}
      (header : InstanceLine number line) (body : DataLines lines data) (more : Instances (number + 1) rest blocks) :
      Instances number (line :: (lines ++ rest)) (data :: blocks)

/-- A text of the driver, with the data of the instances `0, 1, 2, …` in it. -/
def Dump (text : Bytes) (blocks : List (List Nat)) : Prop := Instances 0 (Raw.getlines 10 [] text) blocks

/-! ## Lines -/

section Lines

variable {rest line : Bytes} {words : List Nat}

theorem WordRun.stops (run : WordRun rest words) : Stops rest := by
  cases run with
  | nil space => exact fun c member => space c (List.mem_of_mem_head? member)
  | @cons blank _ _ _ _ gap space _ _ _ _ _ =>
      obtain ⟨d, more, rfl⟩ := List.exists_cons_of_ne_nil gap
      exact stops_cons (space d List.mem_cons_self) _

theorem extractWords_run (run : WordRun rest words) (value : Nat) :
    extractWords { unread := rest, eofbit := rest.isEmpty } value = words := by
  induction run generalizing value with
  | @nil blank space =>
      rw [extractWords]
      refine dif_neg ?_
      cases blank with
      | nil =>
          rw [extract_of_not_good rfl]
          exact Bool.noConfusion
      | cons c blank =>
          change ¬ ((fresh (c :: blank)).extract 32 16 value).2.fail = false
          rw [extract_blank space]
          exact Bool.noConfusion
  | @cons blank digits text rest words gap space marked some all fits more ih =>
      have begun : (⟨blank ++ (text ++ rest), (blank ++ (text ++ rest)).isEmpty, false, false⟩ : IStream) =
          fresh (blank ++ (text ++ rest)) := by
        obtain ⟨d, others, rfl⟩ := List.exists_cons_of_ne_nil gap
        rfl
      have read := extract_marked marked (Nat.le_refl 16) some all space more.stops 32 value
      rw [if_neg (Nat.not_le.mpr fits)] at read
      have succeeded : (⟨rest, rest.isEmpty, false, false⟩ : IStream).fail = false := rfl
      rw [extractWords, begun]
      simp only [read]
      rw [dif_pos succeeded, ih]

theorem lineWords_dataLine (data : DataLine line words) : lineWords line = words := by
  cases data with
  | mk space some solid run =>
      rw [lineWords, extractWord_word space some solid run.stops]
      exact extractWords_run run 0

/-- The characters after the address. -/
theorem WordRun.characters (run : WordRun rest words) :
    ∀ c ∈ rest, isspace c = true ∨ digitValue c < 16 ∨ c = 120 ∨ c = 88 := by
  induction run with
  | nil space => exact fun c member => Or.inl (space c member)
  | @cons blank digits text rest words gap space marked some all fits more ih =>
      intro c member
      rcases List.mem_append.mp member with inBlank | inText
      · exact Or.inl (space c inBlank)
      rcases List.mem_append.mp inText with inText | inRest
      · cases marked with
        | plain => exact Or.inr (Or.inl (all c inText))
        | hex x base16 mark =>
            rcases List.mem_cons.mp inText with rfl | inText
            · exact Or.inr (Or.inl (by decide))
            rcases List.mem_cons.mp inText with rfl | inText
            · exact Or.inr (Or.inr mark)
            · exact Or.inr (Or.inl (all c inText))
      · exact ih c inRest

/-- The blank in a text that does not begin with one comes after the first word of it. -/
theorem mem_rest_of_blank {blank address before after : Bytes} {c : UInt8}
    (space : ∀ c ∈ blank, isspace c = true) (solid : ∀ c ∈ address, isspace c = false)
    (some : ∃ d ∈ before, isspace d = false)
    (same : blank ++ (address ++ rest) = before ++ 32 :: after) (member : c ∈ after) : c ∈ rest := by
  obtain ⟨d, inBefore, solidD⟩ := some
  rcases List.append_eq_append_iff.mp same with ⟨front, rfl, later⟩ | ⟨front, rfl, -⟩
  · rcases List.append_eq_append_iff.mp later with ⟨more, -, last⟩ | ⟨more, rfl, last⟩
    · rw [last]
      exact List.mem_append_right _ (List.mem_cons_of_mem 32 member)
    · cases more with
      | nil =>
          rw [← show 32 :: after = rest from last]
          exact List.mem_cons_of_mem 32 member
      | cons e more =>
          obtain ⟨rfl, -⟩ := List.cons.inj last
          exact absurd (solid 32 (List.mem_append_right _ List.mem_cons_self)) (by decide)
  · have isSpace := space d (List.mem_append_left _ inBefore)
    rw [solidD] at isSpace
    cases isSpace

/-- A line of data does not look like that of an instance. -/
theorem DataLine.not_instance (data : DataLine line words) : ¬ instanceMark <:+: line := by
  rintro ⟨before, after, same⟩
  cases data with
  | @mk blank address rest words space some solid run =>
      have split : blank ++ (address ++ rest) = (before ++ ascii "TPMI") ++ 32 :: (ascii "Instance:" ++ after) := by
        rw [← same]
        simp [instanceMark, ascii]
      have inRest : 73 ∈ rest := mem_rest_of_blank space solid
        ⟨84, List.mem_append_right _ (by decide), by decide⟩ split (List.mem_append_left _ (by decide))
      have impossible := run.characters 73 inRest
      revert impossible
      decide

theorem InstanceLine.marked {number : Nat} (header : InstanceLine number line) : instanceMark <:+: line := by
  obtain ⟨before, blank, after, rfl, -, -⟩ := header
  exact ⟨before, blank ++ (decimal number ++ after), by simp⟩

theorem readLine_instance {r : Reading} (marked : instanceMark <:+: line) : readLine r line =
    { currentEntry := { offset := instanceOffset line r.currentEntry.offset, data := [] }, entries := r.pushed } :=
  if_pos marked

theorem readLine_data {r : Reading} (data : DataLine line words) : readLine r line =
    { r with currentEntry := { r.currentEntry with data := r.currentEntry.data ++ words } } := by
  rw [readLine, if_neg data.not_instance, lineWords_dataLine data]

end Lines

/-! ## The entries of a text -/

section Entries

variable {text : Bytes} {blocks front back : List (List Nat)} {data : List Nat} {offset p number : Nat}

theorem foldl_dataLines {lines : List Bytes} (body : DataLines lines data) (r : Reading) :
    lines.foldl readLine r = { r with currentEntry := { r.currentEntry with data := r.currentEntry.data ++ data } } := by
  induction body generalizing r with
  | nil =>
      rw [List.append_nil]
      rfl
  | cons first rest ih => rw [List.foldl_cons, readLine_data first, ih, List.append_assoc]

/-- There is data. -/
def holdsData (data : List Nat) : Bool := !data.isEmpty

theorem map_data_pushed (r : Reading) :
    r.pushed.map TPMIEntry.data = r.entries.map TPMIEntry.data ++ [r.currentEntry.data].filter holdsData := by
  rw [Reading.pushed]
  by_cases empty : r.currentEntry.data = []
  · rw [if_neg (not_not.mpr empty), empty]
    exact (List.append_nil _).symm
  · have kept : holdsData r.currentEntry.data = true := by simp [holdsData, empty]
    rw [if_pos empty, List.map_append, List.filter_cons_of_pos kept]
    rfl

theorem foldl_instances {lines : List Bytes} (instances : Instances number lines blocks) (r : Reading) :
    (lines.foldl readLine r).pushed.map TPMIEntry.data =
      r.pushed.map TPMIEntry.data ++ blocks.filter holdsData := by
  induction instances generalizing r with
  | nil => exact (List.append_nil _).symm
  | @cons number line lines rest data blocks header body more ih =>
      rw [List.foldl_cons, List.foldl_append, ih, readLine_instance header.marked, foldl_dataLines body, map_data_pushed]
      change r.pushed.map TPMIEntry.data ++ [data].filter holdsData ++ _ = _
      rw [List.append_assoc, ← List.filter_append, List.singleton_append]

/-- Reading keeps the instances that have data. -/
theorem data_readTPMIFile (dump : Dump text blocks) :
    (readTPMIFile (some text)).map TPMIEntry.data = blocks.filter holdsData :=
  (foldl_instances dump {}).trans (List.nil_append _)

theorem holdsData_of_available (there : available data = true) : holdsData data = true := by
  cases data with
  | nil => cases there
  | cons word data => rfl

theorem filter_available (blocks : List (List Nat)) :
    (blocks.filter holdsData).countP available = blocks.countP available := by
  rw [List.countP_filter]
  refine List.countP_congr (fun data _ => ?_)
  simp only [Bool.and_eq_true]
  exact ⟨fun both => both.1, fun there => ⟨there, holdsData_of_available there⟩⟩

/-- The instance with this number has this data, which is available, and there are `p` such before it. -/
structure IsAvailable (blocks : List (List Nat)) (p number : Nat) (data : List Nat) : Prop where
  found : blocks[number]? = some data
  there : available data = true
  before : (blocks.take number).countP available = p

theorem IsAvailable.split (nth : IsAvailable blocks p number data) : ∃ front back,
    blocks = front ++ data :: back ∧ front.length = number ∧ front.countP available = p := by
  obtain ⟨within, same⟩ := List.getElem?_eq_some_iff.mp nth.found
  refine ⟨blocks.take number, blocks.drop (number + 1), ?_, List.length_take_of_le (Nat.le_of_lt within), nth.before⟩
  rw [← same, List.getElem_cons_drop, List.take_append_drop]

theorem isAvailable_append (there : available data = true) :
    IsAvailable (front ++ data :: back) (front.countP available) front.length data where
  found := by rw [List.getElem?_append_right (Nat.le_refl _), Nat.sub_self]; rfl
  there := there
  before := by rw [List.take_left]

theorem exists_isAvailable (below : p < blocks.countP available) : ∃ number data, IsAvailable blocks p number data := by
  suffices ∃ front data back, blocks = front ++ data :: back ∧ available data = true ∧ front.countP available = p by
    obtain ⟨front, data, back, rfl, there, rfl⟩ := this
    exact ⟨_, _, isAvailable_append there⟩
  induction blocks generalizing p with
  | nil => exact absurd below (Nat.not_lt_zero p)
  | cons block blocks ih =>
      by_cases there : available block = true
      · rw [List.countP_cons_of_pos there] at below
        cases p with
        | zero => exact ⟨[], block, blocks, rfl, there, rfl⟩
        | succ p =>
            obtain ⟨front, data, back, rfl, found, count⟩ := ih (Nat.lt_of_succ_lt_succ below)
            exact ⟨block :: front, data, back, rfl, found, by rw [List.countP_cons_of_pos there, count]⟩
      · rw [List.countP_cons_of_neg there] at below
        obtain ⟨front, data, back, rfl, found, count⟩ := ih below
        exact ⟨block :: front, data, back, rfl, found, by rw [List.countP_cons_of_neg there, count]⟩

theorem findValidIndexFrom_split {entryPos i validIndex : Nat} {before after : List TPMIEntry} {entry : TPMIEntry}
    (there : available entry.data = true) (count : validIndex + before.countP (fun e => available e.data) = entryPos) :
    findValidIndexFrom entryPos i validIndex (before ++ entry :: after) = i + before.length := by
  induction before generalizing i validIndex with
  | nil =>
      have first : validIndex = entryPos := count
      rw [List.nil_append, findValidIndexFrom, if_neg (by rw [there]; exact Bool.noConfusion), if_pos first]
      rfl
  | cons first before ih =>
      rw [List.cons_append, findValidIndexFrom, List.length_cons]
      by_cases valid : available first.data = true
      · rw [List.countP_cons_of_pos (p := fun e : TPMIEntry => available e.data) valid] at count
        rw [if_neg (by rw [valid]; exact Bool.noConfusion), if_neg (by omega), ih (by omega)]
        omega
      · rw [List.countP_cons_of_neg (p := fun e : TPMIEntry => available e.data) valid] at count
        rw [if_pos (Bool.eq_false_of_not_eq_true valid), ih count]
        omega

/-- The index among the instances with data of the `p`-th that is available, and the entry there. -/
theorem findValidIndex_dump (dump : Dump text (front ++ data :: back)) (there : available data = true) :
    findValidIndex (readTPMIFile (some text)) (front.countP available) = (front.filter holdsData).length ∧
      ∃ entry, (readTPMIFile (some text))[(front.filter holdsData).length]? = some entry ∧ entry.data = data := by
  have kept := data_readTPMIFile dump
  rw [List.filter_append, List.filter_cons_of_pos (holdsData_of_available there)] at kept
  obtain ⟨before, rest, entries, sameBefore, sameRest⟩ := List.map_eq_append_iff.mp kept
  obtain ⟨entry, after, rfl, sameEntry, -⟩ := List.map_eq_cons_iff.mp sameRest
  have length : before.length = (front.filter holdsData).length := by rw [← sameBefore, List.length_map]
  have count : before.countP (fun e => available e.data) = front.countP available := by
    rw [← filter_available front, ← sameBefore, List.countP_map]
    rfl
  refine ⟨?_, entry, ?_, sameEntry⟩
  · rw [entries, findValidIndex, findValidIndexFrom_split (by rw [sameEntry]; exact there) (by rw [count, Nat.zero_add]),
      Nat.zero_add, length]
  · rw [entries, ← length, List.getElem?_append_right (Nat.le_refl _), Nat.sub_self]
    rfl

theorem getNumEntries_dump (dump : Dump text blocks) : getNumEntries (some text) = blocks.countP available := by
  rw [← filter_available blocks, ← data_readTPMIFile dump, List.countP_map]
  rfl

theorem read64_dump (dump : Dump text (front ++ data :: back)) (there : available data = true) (offset : Nat) :
    read64 (some text) offset (front.countP available) = wordsAt data offset := by
  obtain ⟨index, entry, found, same⟩ := findValidIndex_dump dump there
  rw [read64, index, found, ← same]

theorem write64_dump (dump : Dump text (front ++ data :: back)) (there : available data = true) (offset val : Nat) :
    write64 (some text) offset (front.countP available) val = memWrites (front.filter holdsData).length offset val := by
  rw [write64, (findValidIndex_dump dump there).1]

theorem memWrites_injective {i j val : Nat} (same : memWrites i offset val = memWrites j offset val) : i = j := by
  have first : memWrite i offset (val % 2 ^ 32) = memWrite j offset (val % 2 ^ 32) := (List.cons.inj same).1
  simp only [memWrite, List.append_assoc] at first
  exact decimal_injective (digits_append_cancel (x := 44) (y := 44) (fun c => isdigit_of_mem_decimal)
    (fun c => isdigit_of_mem_decimal) rfl rfl first).1

/-- The entries of the handle are the available instances: read at the offset, and written by their own number. -/
structure Addresses (text : Bytes) (blocks : List (List Nat)) (offset : Nat) : Prop where
  count : getNumEntries (some text) = blocks.countP available
  entries : ∀ p < getNumEntries (some text), ∃ number data, IsAvailable blocks p number data ∧
    read64 (some text) offset p = wordsAt data offset ∧
    ∀ val, write64 (some text) offset p val = memWrites number offset val

/-- No instance without data comes before an available one. -/
def EmptyLast (blocks : List (List Nat)) : Prop :=
  ∀ (i number : Nat) (data : List Nat), blocks[i]? = some [] → blocks[number]? = some data → available data = true → number < i

theorem filter_front (emptyLast : EmptyLast (front ++ data :: back)) (there : available data = true) :
    front.filter holdsData = front := by
  rw [List.filter_eq_self]
  intro block member
  rcases block with - | ⟨word, block⟩
  · obtain ⟨i, below, same⟩ := List.getElem_of_mem member
    have empty : (front ++ data :: back)[i]? = some [] := by
      rw [List.getElem?_append_left below, List.getElem?_eq_getElem below, same]
    exact absurd (emptyLast i front.length data empty (isAvailable_append there).found there) (by omega)
  · rfl

theorem addresses_of_emptyLast (dump : Dump text blocks) (emptyLast : EmptyLast blocks) (offset : Nat) :
    Addresses text blocks offset where
  count := getNumEntries_dump dump
  entries := by
    intro p below
    rw [getNumEntries_dump dump] at below
    obtain ⟨number, data, nth⟩ := exists_isAvailable below
    obtain ⟨front, back, rfl, rfl, rfl⟩ := nth.split
    refine ⟨front.length, data, nth, read64_dump dump nth.there offset, fun val => ?_⟩
    rw [write64_dump dump nth.there, filter_front emptyLast nth.there]

theorem IsAvailable.number_unique {number' : Nat} {data' : List Nat} (first : IsAvailable blocks p number data)
    (second : IsAvailable blocks p number' data') : number = number' := by
  -- There is one more available instance before any later one.
  have less : ∀ {m n : Nat} {d d' : List Nat}, IsAvailable blocks p m d → IsAvailable blocks p n d' → ¬ m < n := by
    intro m n d d' early late before
    have counted : (blocks.take m).countP available < (blocks.take n).countP available := by
      have within : m < blocks.length := (List.getElem?_eq_some_iff.mp early.found).1
      have prefixed : blocks.take (m + 1) <+: blocks.take n := List.take_prefix_take_left before
      refine Nat.lt_of_lt_of_le ?_ (List.Sublist.countP_le prefixed.sublist)
      rw [List.take_add_one, early.found, List.countP_append, Option.toList_some, List.countP_singleton,
        if_pos early.there]
      exact Nat.lt_succ_self _
    rw [early.before, late.before] at counted
    exact Nat.lt_irrefl p counted
  exact Nat.le_antisymm (Nat.not_lt.mp (less second first)) (Nat.not_lt.mp (less first second))

/-- An available instance after one without data is written by a number that is too small. -/
theorem write64_ne (dump : Dump text (front ++ data :: back)) (there : available data = true) (empty : [] ∈ front)
    (offset val : Nat) :
    write64 (some text) offset (front.countP available) val ≠ memWrites front.length offset val := by
  rw [write64_dump dump there]
  intro same
  have length := memWrites_injective same
  have kept : front.filter holdsData = front := List.filter_eq_self.mpr (List.length_filter_eq_length_iff.mp length)
  exact absurd (List.filter_eq_self.mp kept [] empty) Bool.false_ne_true

/-- Reading and writing go to the same instances exactly when those without data come last. -/
theorem addresses_iff (dump : Dump text blocks) (offset : Nat) :
    Addresses text blocks offset ↔ EmptyLast blocks := by
  refine ⟨fun addresses i number data empty same there => ?_, fun emptyLast => addresses_of_emptyLast dump emptyLast offset⟩
  by_contra late
  have nth : IsAvailable blocks ((blocks.take number).countP available) number data := ⟨same, there, rfl⟩
  obtain ⟨front, back, rfl, rfl, count⟩ := nth.split
  have different : i ≠ front.length := by
    rintro rfl
    rw [nth.found] at empty
    cases empty
    cases there
  have before : i < front.length := by omega
  rw [List.getElem?_append_left before] at empty
  have below : front.countP available < getNumEntries (some text) := by
    rw [getNumEntries_dump dump, List.countP_append, List.countP_cons_of_pos there]
    omega
  obtain ⟨number', data', nth', -, writes⟩ := addresses.entries _ below
  rw [← count] at nth
  have own : number' = front.length := nth'.number_unique nth
  exact write64_ne dump there (List.mem_of_getElem? empty) offset 0 (own ▸ writes 0)

end Entries

/-! ## Two instances, one of them without data -/

theorem dataLine_row : DataLine (ascii "0: 1 2") [1, 2] := by
  have noSpace : ∀ c ∈ ([] : Bytes), isspace c = true := fun c member => absurd member List.not_mem_nil
  have blank : ∀ c ∈ [32], isspace c = true := forall_mem_of_all rfl
  have last : WordRun ([32] ++ ([50] ++ [])) [2] :=
    .cons (List.cons_ne_nil _ _) blank .plain (List.cons_ne_nil _ _) (forall_mem_of_all rfl) (by decide) (.nil noSpace)
  have run : WordRun ([32] ++ ([49] ++ ([32] ++ ([50] ++ [])))) [1, 2] :=
    .cons (List.cons_ne_nil _ _) blank .plain (List.cons_ne_nil _ _) (forall_mem_of_all rfl) (by decide) last
  exact .mk noSpace (List.cons_ne_nil 48 [58]) (forall_mem_of_all rfl) run

theorem instanceLine_number (number : Nat) : InstanceLine number (instanceMark ++ decimal number) :=
  ⟨[], [], [], by simp, fun c member => absurd member List.not_mem_nil, fun c member => by cases member⟩

/-- The instance without data comes first. -/
def emptyFirst : Bytes := ascii "TPMI Instance:0\nTPMI Instance:1\n0: 1 2\n"

/-- It comes last. -/
def emptySecond : Bytes := ascii "TPMI Instance:0\n0: 1 2\nTPMI Instance:1"

theorem dump_emptyFirst : Dump emptyFirst [[], [1, 2]] := by
  have lines : Raw.getlines 10 [] emptyFirst =
      [instanceMark ++ decimal 0, instanceMark ++ decimal 1, ascii "0: 1 2"] := by decide +kernel
  rw [Dump, lines]
  exact .cons (instanceLine_number 0) .nil (.cons (instanceLine_number 1) (.cons dataLine_row .nil) .nil)

theorem dump_emptySecond : Dump emptySecond [[1, 2], []] := by
  have lines : Raw.getlines 10 [] emptySecond =
      [instanceMark ++ decimal 0, ascii "0: 1 2", instanceMark ++ decimal 1] := by decide +kernel
  rw [Dump, lines]
  exact .cons (instanceLine_number 0) (.cons dataLine_row .nil) (.cons (instanceLine_number 1) .nil .nil)

theorem addresses_iff_emptySecond : Dump emptySecond [[1, 2], []] ∧
    (Addresses emptySecond [[1, 2], []] 0 ↔ EmptyLast [[1, 2], []]) :=
  ⟨dump_emptySecond, addresses_iff dump_emptySecond 0⟩

/-- The second instance is read as the first entry, and written as the first instance. -/
theorem not_addresses_emptyFirst : Dump emptyFirst [[], [1, 2]] ∧
    read64 (some emptyFirst) 0 0 = some (1 + 2 ^ 32 * 2) ∧ (∀ val, write64 (some emptyFirst) 0 0 val = memWrites 0 0 val) ∧
    ¬ Addresses emptyFirst [[], [1, 2]] 0 := by
  have there : available [1, 2] = true := rfl
  have split : Dump emptyFirst ([[]] ++ [1, 2] :: []) := dump_emptyFirst
  refine ⟨dump_emptyFirst, read64_dump split there 0, fun val => write64_dump split there 0 val, fun addresses => ?_⟩
  obtain ⟨number, data, nth, -, writes⟩ := addresses.entries 0 (by rw [getNumEntries_dump dump_emptyFirst]; decide)
  have second : IsAvailable ([[]] ++ [1, 2] :: []) 0 1 [1, 2] := isAvailable_append there
  have written := writes 0
  rw [nth.number_unique second] at written
  exact write64_ne split there List.mem_cons_self 0 0 written

end Pcm.Tpmi
