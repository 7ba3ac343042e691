import Pcm.JsonPrinter

/-!
# What the JSON printer writes is a JSON document

Items are laid out one to a line, each followed by a comma; the last one may lack it. This layout is what
every printing function adds to the text, and `endObject` turns it into the inside of an object or a list.
-/

namespace Pcm.JsonPrinter

open StdString Json Pcm.Topology

/-! ## Layouts -/

/-- What comes after the last item. -/
inductive Ending
  | comma
  | newline

section Layout

variable {α : Type} {Item : α → Bytes → Prop} {e : Ending} {items others : List α} {text : Bytes}

/-- Items on lines of their own. -/
inductive Listed (Item : α → Bytes → Prop) : Ending → List α → Bytes → Prop
  | nil : Listed Item .comma [] []
  | comma {items text indent item own} (before : Listed Item .comma items text)
      (blank : Blank indent) (isItem : Item item own) :
      Listed Item .comma (items ++ [item]) (text ++ (indent ++ (own ++ [44, 13, 10])))
  | newline {items text indent item own c} (before : Listed Item .comma items text)
      (blank : Blank indent) (isItem : Item item (own ++ [c])) (last : c ≠ 44) :
      Listed Item .newline (items ++ [item]) (text ++ (indent ++ (own ++ c :: [13, 10])))

theorem Listed.append {others : List α} {more : Bytes} (before : Listed Item .comma items text)
    (after : Listed Item e others more) : Listed Item e (items ++ others) (text ++ more) := by
  induction after with
  | nil => simpa using before
  | comma _ blank isItem ih =>
      rw [← List.append_assoc, ← List.append_assoc]
      exact .comma ih blank isItem
  | newline _ blank isItem last ih =>
      rw [← List.append_assoc, ← List.append_assoc]
      exact .newline ih blank isItem last

theorem blank_eol : Blank [13, 10] := by
  intro c member
  simp only [List.mem_cons, List.not_mem_nil, or_false] at member
  rcases member with rfl | rfl
  · exact Or.inr (Or.inr (Or.inr rfl))
  · exact Or.inr (Or.inr (Or.inl rfl))

/-- A line behind a layout, before its end, makes it separated items. -/
theorem Listed.separated_snoc {indent own before after : Bytes} {item : α}
    (listed : Listed Item .comma items text) (blank : Blank indent) (isItem : Item item own)
    (blankBefore : Blank before) (blankAfter : Blank after) :
    Separated Item (items ++ [item]) (before ++ (text ++ (indent ++ (own ++ after)))) := by
  generalize kind : Ending.comma = ending at listed
  induction listed generalizing indent own after item with
  | nil =>
      have whole := Separated.last (blankBefore.append blank) isItem blankAfter
      simpa using whole
  | @comma items text indent' item' own' _ blank' isItem' ih =>
      have inner := ih blank' isItem' blank_nil kind
      have whole := inner.snoc (by simp) (blank_eol.append blank) isItem blankAfter
      simpa using whole
  | newline => cases kind

/-- Where a layout ends with a comma, something else in its place makes it separated items. -/
theorem Listed.of_comma (listed : Listed Item .comma items text) :
    (items = [] ∧ text = []) ∨ ∃ front, text = front ++ [44, 13, 10] ∧
      ∀ before after, Blank before → Blank after → Separated Item items (before ++ (front ++ after)) := by
  cases listed with
  | nil => exact Or.inl ⟨rfl, rfl⟩
  | @comma items text indent item own before blank isItem =>
      refine Or.inr ⟨text ++ (indent ++ own), by simp, ?_⟩
      intro left right blankLeft blankRight
      simpa using before.separated_snoc blank isItem blankLeft blankRight

theorem Listed.of_newline (listed : Listed Item .newline items text) :
    ∃ front c, text = front ++ c :: [13, 10] ∧ c ≠ 44 ∧
      ∀ before after, Blank before → Blank after →
        Separated Item items (before ++ (front ++ c :: after)) := by
  cases listed with
  | @newline items text indent item own c before blank isItem last =>
      refine ⟨text ++ (indent ++ own), c, by simp, last, ?_⟩
      intro left right blankLeft blankRight
      simpa using before.separated_snoc blank isItem blankLeft blankRight

end Layout

/-! ## The printer at the end of its text -/

/-- The white space of a level. -/
def spaces (n : Nat) : Bytes := (List.replicate n (ascii "  ")).flatten

/-- A printer at this level that has written this text and stands before some older characters. -/
def overlaid (n : Nat) (text stale : Bytes) : JSONPrinter :=
  ⟨⟨text ++ stale, text.length, false⟩, ⟨ascii "  ", spaces n, n⟩⟩

/-- A printer at the end of its text. -/
def standing (n : Nat) (text : Bytes) : JSONPrinter := overlaid n text []

theorem spaces_succ (n : Nat) : spaces (n + 1) = spaces n ++ ascii "  " := by
  simp [spaces, List.replicate_succ']

theorem length_spaces (n : Nat) : (spaces n).length = n * 2 := by
  induction n with
  | zero => rfl
  | succ n ih =>
      rw [spaces_succ, List.length_append, ih]
      change n * 2 + 2 = (n + 1) * 2
      omega

theorem blank_of_all {text : Bytes} (all : text.all (· = 32) = true) : Blank text :=
  fun c member => Or.inl (of_decide_eq_true (List.all_eq_true.mp all c member))

theorem blank_spaces (n : Nat) : Blank (spaces n) := by
  induction n with
  | zero => exact blank_nil
  | succ n ih =>
      rw [spaces_succ]
      exact ih.append (blank_of_all (by decide))

theorem increment_standing (n : Nat) :
    Indent.increment ⟨ascii "  ", spaces n, n⟩ = ⟨ascii "  ", spaces (n + 1), n + 1⟩ := by
  rw [Indent.increment, spaces_succ]

theorem decrement_standing (n : Nat) :
    Indent.decrement ⟨ascii "  ", spaces (n + 1), n + 1⟩ = .ok ⟨ascii "  ", spaces n, n⟩ := by
  have two : (ascii "  ").length = 2 := rfl
  have long := length_spaces n
  simp only [Indent.decrement, Nat.zero_lt_succ, if_true, Nat.add_sub_cancel, two]
  rw [if_neg (by rw [length_spaces]; omega), spaces_succ, ← long, List.take_left]

section Writing

variable {n : Nat} {text own stale : Bytes}

/-- What is written covers as many of the older characters. -/
theorem write_over :
    write own (overlaid n text stale) = .ok ((), overlaid n (text ++ own) (stale.drop own.length)) := by
  have taken : (text ++ stale).take text.length = text := List.take_left
  have left : (text ++ stale).drop (text.length + own.length) = stale.drop own.length := by
    rw [← List.drop_drop, List.drop_left]
  simp [write, modify, modifyGet, MonadStateOf.modifyGet, StateT.modifyGet, overlaid,
    StringStream.write, pure, Except.pure, taken, left]

theorem write_standing : write own (standing n text) = .ok ((), standing n (text ++ own)) := by
  rw [standing, write_over, List.drop_nil, standing]

theorem seq_ok {α : Type} {p : StateT JSONPrinter (Except StdException) α} {q : α → Print} {a : α}
    {s next : JSONPrinter} (first : p s = .ok (a, next)) : (p >>= q) s = q a next := by
  change (p s >>= fun r => q r.1 r.2) = _
  rw [first]
  rfl

theorem get_ok (s : JSONPrinter) :
    (get : StateT JSONPrinter (Except StdException) JSONPrinter) s = .ok (s, s) := rfl

theorem set_ok (s next : JSONPrinter) : (set next : Print) s = .ok ((), next) := rfl

theorem lift_ok {α : Type} {x : Except StdException α} {a : α} (ok : x = .ok a) (s : JSONPrinter) :
    (liftM x : StateT JSONPrinter (Except StdException) α) s = .ok (a, s) := by
  rw [ok]
  rfl

theorem startObject_standing (name : Bytes) (ch : UInt8) :
    startObject name ch (standing n text) = .ok ((), standing (n + 1) (text ++ (spaces n ++
      ((if name = [] then [] else quoted name ++ ascii " : ") ++ ch :: [13, 10])))) := by
  have start : startObject name ch (standing n text) = (do
      write (spaces n)
      write (if name = [] then [] else quoted name ++ ascii " : ")
      write [ch]
      write eol : Print) (standing (n + 1) text) := by
    simp only [standing, overlaid, ← increment_standing]
    rfl
  rw [start, seq_ok write_standing, seq_ok write_standing, seq_ok write_standing, write_standing]
  simp [eol]

theorem printCounter_standing (name number : Bytes) :
    printCounter name number (standing n text) = .ok ((), standing n
      (text ++ (spaces n ++ ((quoted name ++ (ascii " : " ++ number)) ++ [44, 13, 10])))) := by
  have start : printCounter name number (standing n text) = (do
      write (spaces n)
      write (34 :: (name ++ ascii "\" : "))
      write number
      write [44]
      write eol : Print) (standing n text) := rfl
  rw [start, seq_ok write_standing, seq_ok write_standing, seq_ok write_standing,
    seq_ok write_standing, write_standing]
  have mark : ascii "\" : " = 34 :: ascii " : " := rfl
  simp [eol, quoted, mark]

theorem printText_standing (name value : Bytes) :
    printText name value (standing n text) = .ok ((), standing n
      (text ++ (spaces n ++ ((quoted name ++ (ascii " : " ++ quoted value)) ++ [44, 13, 10])))) := by
  have start : printText name value (standing n text) = (do
      write (spaces n)
      write (34 :: (name ++ ascii "\" : \""))
      write value
      write (ascii "\",")
      write eol : Print) (standing n text) := rfl
  rw [start, seq_ok write_standing, seq_ok write_standing, seq_ok write_standing,
    seq_ok write_standing, write_standing]
  have mark : ascii "\" : \"" = 34 :: (ascii " : " ++ [34]) := rfl
  have delimiter : ascii "\"," = [34, 44] := rfl
  simp [eol, quoted, mark, delimiter]

/-- What `endObject` writes after the bracket. -/
def lineEnd : LineEndAction → Bytes
  | .newLineOnly => [13, 10]
  | .delimiterOnly => [44]
  | .delimiterAndNewLine => [44, 13, 10]

theorem endLine_standing (lea : LineEndAction) :
    endLine lea (standing n text) = .ok ((), standing n (text ++ lineEnd lea)) := by
  cases lea with
  | newLineOnly => exact write_standing
  | delimiterOnly => exact write_standing
  | delimiterAndNewLine =>
      simp only [endLine]
      rw [seq_ok write_standing, write_standing]
      simp [lineEnd, eol]

/-- The bracket covers at least one older character. -/
theorem closeBracket_over (lea : LineEndAction) (ch : UInt8) (short : stale.length ≤ 1) :
    closeBracket lea ch (overlaid (n + 1) text stale) =
      .ok ((), standing n (text ++ (spaces n ++ ch :: lineEnd lea))) := by
  have start : closeBracket lea ch (overlaid (n + 1) text stale) = (do
      write (spaces n)
      write [ch]
      endLine lea : Print) (overlaid n text stale) := by
    have lower : (overlaid (n + 1) text stale).indentation.decrement =
        .ok ⟨ascii "  ", spaces n, n⟩ := decrement_standing n
    rw [closeBracket, seq_ok (get_ok _), seq_ok (lift_ok lower _), seq_ok (set_ok _ _)]
    rfl
  have covered : (stale.drop (spaces n).length).drop 1 = [] := by
    rw [List.drop_drop]
    exact List.drop_eq_nil_of_le (by omega)
  rw [start, seq_ok write_over, seq_ok write_over, List.length_singleton, covered, ← standing,
    endLine_standing]
  simp

theorem peekBack_standing (c : UInt8) :
    (standing n (text ++ c :: [13, 10])).ss.peekBack =
      (some (c, text.length), (standing n (text ++ c :: [13, 10])).ss) := by
  simp [standing, overlaid, StringStream.peekBack]

/-- The comma of the last item is written over. -/
theorem endObject_comma (n : Nat) (text : Bytes) (lea : LineEndAction) (ch : UInt8) :
    endObject lea ch (standing (n + 1) (text ++ [44, 13, 10])) =
      .ok ((), standing n (text ++ ([13, 10] ++ (spaces n ++ ch :: lineEnd lea)))) := by
  have dropped : dropComma (standing (n + 1) (text ++ [44, 13, 10])) =
      .ok ((), overlaid (n + 1) (text ++ [13, 10]) [10]) := by
    rw [dropComma, seq_ok (get_ok _), peekBack_standing]
    simp only [if_true, set_ok]
    simp [standing, overlaid, StringStream.seekp, StringStream.write, eol]
  rw [endObject, seq_ok dropped, closeBracket_over lea ch (by simp)]
  simp

/-- Any other character in its place stays. -/
theorem endObject_other (n : Nat) (text : Bytes) (lea : LineEndAction) (ch : UInt8) {c : UInt8}
    (other : c ≠ 44) :
    endObject lea ch (standing (n + 1) (text ++ c :: [13, 10])) =
      .ok ((), standing n (text ++ (c :: [13, 10] ++ (spaces n ++ ch :: lineEnd lea)))) := by
  have kept : dropComma (standing (n + 1) (text ++ c :: [13, 10])) =
      .ok ((), standing (n + 1) (text ++ c :: [13, 10])) := by
    rw [dropComma, seq_ok (get_ok _), peekBack_standing]
    simp only [if_neg other]
    rfl
  rw [endObject, seq_ok kept, standing, closeBracket_over lea ch (by simp)]
  simp

end Writing

/-! ## Rules for printing -/

/-- From any level and text, the printing function comes back to the level and has added a layout of
these items. -/
def Prints {α : Type} (Item : α → Bytes → Prop) (p : Print) (e : Ending) (items : List α) : Prop :=
  ∀ n text, ∃ added, p (standing n text) = .ok ((), standing n (text ++ added)) ∧
    Listed Item e items added

def LineEndAction.ending : LineEndAction → Ending
  | .newLineOnly => .newline
  | _ => .comma

section Rules

variable {α β : Type} {Item : α → Bytes → Prop} {p q body : Print} {e : Ending} {items others : List α}

theorem prints_nothing : Prints Item (pure ()) .comma [] :=
  fun n text => ⟨[], by rw [List.append_nil]; rfl, .nil⟩

theorem Prints.seq (first : Prints Item p .comma items) (second : Prints Item q e others) :
    Prints Item (p >>= fun _ => q) e (items ++ others) := by
  intro n text
  obtain ⟨added, ran, listed⟩ := first n text
  obtain ⟨added', ran', listed'⟩ := second n (text ++ added)
  refine ⟨added ++ added', ?_, listed.append listed'⟩
  rw [seq_ok ran, ran', List.append_assoc]

theorem prints_forM {f : β → Print} {g : β → List α} (xs : List β)
    (each : ∀ x ∈ xs, Prints Item (f x) .comma (g x)) :
    Prints Item (xs.forM f) .comma (xs.flatMap g) := by
  induction xs with
  | nil => exact prints_nothing
  | cons x xs ih =>
      rw [List.flatMap_cons]
      exact (each x (List.mem_cons_self ..)).seq
        (ih (fun y member => each y (List.mem_cons_of_mem x member)))

theorem blank_colon : Blank (ascii " ") := blank_of_all (by decide)

/-- A member as the printer writes it. -/
theorem member_text {name text : Bytes} {value : Value} (plain : Plain name) (isText : Text value text) :
    Member Text (name, value) (quoted name ++ (ascii " : " ++ text)) :=
  .intro plain.chars blank_colon blank_colon isText

theorem prints_counter (name : Bytes) {number : Bytes} (plain : Plain name)
    (isNumber : IsNumber number) :
    Prints (Member Text) (printCounter name number) .comma [(name, .number number)] :=
  fun n _ => ⟨_, printCounter_standing name number,
    .comma .nil (blank_spaces n) (member_text plain (.number isNumber))⟩

theorem prints_text (name value : Bytes) (plain : Plain name) (plain' : Plain value) :
    Prints (Member Text) (printText name value) .comma [(name, .string value)] :=
  fun n _ => ⟨_, printText_standing name value,
    .comma .nil (blank_spaces n) (member_text plain (.string plain'.chars))⟩

/-- Brackets around a layout enclose separated items. -/
theorem encloses (inner : Prints Item body e items) (name : Bytes) {opening : UInt8}
    (other : opening ≠ 44) (lea : LineEndAction) (closing : UInt8) (n : Nat) (text : Bytes) :
    ∃ inside, (do
        startObject name opening
        body
        endObject lea closing : Print) (standing n text) =
      .ok ((), standing n (text ++ (spaces n ++ ((if name = [] then [] else quoted name ++ ascii " : ") ++
        (opening :: (inside ++ closing :: lineEnd lea)))))) ∧ Separated Item items inside := by
  rw [seq_ok (startObject_standing name opening)]
  generalize (if name = [] then [] else quoted name ++ ascii " : ") = label
  obtain ⟨added, ran, listed⟩ := inner (n + 1) (text ++ (spaces n ++ (label ++ opening :: [13, 10])))
  rw [seq_ok ran]
  cases e with
  | comma =>
      rcases listed.of_comma with ⟨rfl, rfl⟩ | ⟨front, rfl, separated⟩
      · refine ⟨[13, 10] ++ spaces n, ?_, .nil (blank_eol.append (blank_spaces n))⟩
        have ended := endObject_other n (text ++ (spaces n ++ label)) lea closing other
        simpa using ended
      · refine ⟨[13, 10] ++ (front ++ ([13, 10] ++ spaces n)), ?_,
          separated _ _ blank_eol (blank_eol.append (blank_spaces n))⟩
        have ended := endObject_comma n
          (text ++ (spaces n ++ (label ++ (opening :: ([13, 10] ++ front))))) lea closing
        simpa using ended
  | newline =>
      obtain ⟨front, c, rfl, notComma, separated⟩ := listed.of_newline
      refine ⟨[13, 10] ++ (front ++ c :: ([13, 10] ++ spaces n)), ?_,
        separated _ _ blank_eol (blank_eol.append (blank_spaces n))⟩
      have ended := endObject_other n
        (text ++ (spaces n ++ (label ++ (opening :: ([13, 10] ++ front))))) lea closing notComma
      simpa using ended

/-- A bracketed item, with what ends its line. -/
theorem listed_item {item : α} {c : UInt8} (lea : LineEndAction) (n : Nat) (own : Bytes)
    (whole : lea ≠ .delimiterOnly) (isItem : Item item (own ++ [c])) (other : c ≠ 44) :
    Listed Item lea.ending [item] (spaces n ++ (own ++ c :: lineEnd lea)) := by
  cases lea with
  | newLineOnly => exact .newline .nil (blank_spaces n) isItem other
  | delimiterOnly => exact absurd rfl whole
  | delimiterAndNewLine =>
      have line := Listed.comma .nil (blank_spaces n) isItem
      simpa [lineEnd, LineEndAction.ending] using line

/-- A name that `startObject` writes. -/
def Label (name : Bytes) : Prop := Plain name ∧ name ≠ []

instance decidableLabel (name : Bytes) : Decidable (Label name) :=
  inferInstanceAs (Decidable (Plain name ∧ name ≠ []))

theorem prints_object {members : List (Bytes × Value)} {lea : LineEndAction} (name : Bytes)
    (label : Label name) (whole : lea ≠ .delimiterOnly) (inner : Prints (Member Text) body e members) :
    Prints (Member Text) (printObject name lea body) lea.ending [(name, .object members)] := by
  intro n text
  obtain ⟨inside, ran, separated⟩ := encloses inner name (by decide : (123 : UInt8) ≠ 44) lea 125 n text
  refine ⟨_, ran, ?_⟩
  have isItem := member_text label.1 (.object separated)
  rw [if_neg label.2]
  have line := listed_item lea n (quoted name ++ (ascii " : " ++ 123 :: inside)) whole
    (by simpa using isItem) (by decide : (125 : UInt8) ≠ 44)
  simpa using line

theorem Prints.inObject {members : List (Bytes × Value)} (inner : Prints (Member Text) body e members)
    (name : Bytes) (label : Label name) :
    Prints (Member Text) (printObject name .delimiterAndNewLine body) .comma
      [(name, .object members)] :=
  prints_object name label nofun inner

theorem Prints.inLastObject {members : List (Bytes × Value)}
    (inner : Prints (Member Text) body e members) (name : Bytes) (label : Label name) :
    Prints (Member Text) (printObject name .newLineOnly body) .newline [(name, .object members)] :=
  prints_object name label nofun inner

theorem prints_list {accept : β → Print} {elements : List β} {values : List Value} (name : Bytes)
    (label : Label name) (inner : Prints Text (iterateVectorAndCallAccept accept elements) e values) :
    Prints (Member Text) (printList name accept elements) .comma [(name, .array values)] := by
  intro n text
  obtain ⟨inside, ran, separated⟩ := encloses inner name (by decide : (91 : UInt8) ≠ 44)
    .delimiterAndNewLine 93 n text
  refine ⟨_, ran, ?_⟩
  have isItem := member_text label.1 (.array separated)
  rw [if_neg label.2]
  have line := listed_item .delimiterAndNewLine n (quoted name ++ (ascii " : " ++ 91 :: inside))
    nofun (by simpa using isItem) (by decide : (93 : UInt8) ≠ 44)
  simpa [LineEndAction.ending] using line

/-- Objects in a list have no names. -/
theorem prints_elements {accept : β → Print} {members : β → List (Bytes × Value)} {elements : List β}
    (each : ∀ x ∈ elements, ∃ e, Prints (Member Text) (accept x) e (members x)) :
    Prints Text (iterateVectorAndCallAccept accept elements) .comma
      (elements.map (fun x => .object (members x))) := by
  induction elements with
  | nil => exact prints_nothing
  | cons x xs ih =>
      obtain ⟨e, inner⟩ := each x (List.mem_cons_self ..)
      have first : Prints Text (printObject [] .delimiterAndNewLine (accept x)) .comma
          [.object (members x)] := by
        intro n text
        obtain ⟨inside, ran, separated⟩ := encloses inner [] (by decide : (123 : UInt8) ≠ 44)
          .delimiterAndNewLine 125 n text
        refine ⟨_, ran, ?_⟩
        have isItem : Text (.object (members x)) (123 :: inside ++ [125]) := .object separated
        have line := listed_item .delimiterAndNewLine n (123 :: inside) nofun isItem
          (by decide : (125 : UInt8) ≠ 44)
        simpa [LineEndAction.ending] using line
      have whole := first.seq (ih (fun y member => each y (List.mem_cons_of_mem x member)))
      simpa [iterateVectorAndCallAccept, printObject] using whole

theorem prints_counters {names : List Bytes} (value : Bytes → Number)
    (plain : ∀ name ∈ names, Plain name) :
    Prints (Member Text) (printCounters names value) .comma
      (names.map (fun name => (name, .number (value name).1))) := by
  rw [List.map_eq_flatMap]
  exact prints_forM names (fun name member => prints_counter name (plain name member) (value name).2)

end Rules

/-! ## The value that is printed -/

section Values

variable (r : Readings)

def counters (names : List Bytes) (value : Bytes → Number) : List (Bytes × Value) :=
  names.map (fun name => (name, .number (value name).1))

def basicMembers (site : Site) : List (Bytes × Value) :=
  [(ascii "Core Counters", .object (counters coreCounterNames (r.basic site))),
    (ascii "Energy Counters", .object (counters energyCounterNames (r.basic site))),
    (ascii "Core Memory Bandwidth Counters", .object (counters memoryCounterNames (r.basic site)))]

def uncoreMembers (site : Site) : List (Bytes × Value) :=
  [(ascii "Uncore Counters", .object
    (counters (uncoreCounterNames r.nearMemoryMetricsAvailable) (r.uncore site) ++
      ((r.uncoreFrequencies site).zipIdx.map (fun p => (frequencyName p.2, .number p.1.1)) ++
        (counters ratioNames (r.uncore site) ++ counters cStateNames (r.uncore site)))))]

def threadMembers (ht : HyperThread) : List (Bytes × Value) :=
  (ascii "Object", .string (ascii "HyperThread")) ::
  (ascii "Thread ID", .number (decimalInt ht.threadID)) ::
  (ascii "OS ID", .number (decimalInt ht.osID)) :: basicMembers r (.thread ht.osID)

def coreMembers (c : Topology.Core) : List (Bytes × Value) :=
  [(ascii "Object", .string (ascii "Core")),
    (ascii "Number of threads", .number (decimal c.threads.length)),
    (ascii "Threads", .array (c.threads.map (fun ht => .object (threadMembers r ht)))),
    (ascii "Core ID", .number (decimalInt c.socketUniqueCoreID)),
    (ascii "HW Core ID", .number (decimalInt c.coreID)),
    (ascii "Module ID", .number (decimalInt c.moduleID)),
    (ascii "Tile ID", .number (decimalInt c.tileID)),
    (ascii "Die ID", .number (decimalInt c.dieID)),
    (ascii "Die Group ID", .number (decimalInt c.dieGroupID)),
    (ascii "Socket ID", .number (decimalInt c.socketID))]

def uncoreKindText : UncoreKind → Bytes
  | .server => ascii "ServerUncore"
  | .client => ascii "ClientUncore"

def socketMembers (s : Socket) : List (Bytes × Value) :=
  [(ascii "Object", .string (ascii "Socket")),
    (ascii "Socket ID", .number (decimalInt s.socketID)),
    (ascii "Number of cores", .number (decimal s.cores.length)),
    (ascii "Cores", .array (s.cores.map (fun c => .object (coreMembers r c)))),
    (ascii "Uncore", .object ((ascii "Object", .string (uncoreKindText s.uncore)) ::
      uncoreMembers r (.socket s.socketID))),
    (ascii "Core Aggregate", .object (basicMembers r (.socket s.socketID)))]

def acceleratorMembers (accs : Accelerators) : List (Bytes × Value) :=
  (List.range accs.numOfDevs).map (fun i =>
    (accs.counterName.1 ++ (ascii " Counters Device " ++ decimal i),
      .object (accs.counterNames.zipIdx.map (fun p => (p.1.1, .number (accs.value i p.2).1)))))

def linkMembers : List (Bytes × Value) :=
  (List.range r.numSockets).map (fun i =>
    (ascii "QPI Counters Socket " ++ decimal i, .object (counters cxlNames (r.cxl i) ++
      (List.range r.qpiLinksPerSocket).flatMap (fun j => counters (linkNames j) (r.link i j)))))

def pcieCounterMembers (col : PCIe) (skt : Option Nat) : List (Bytes × Value) :=
  (ascii "PCIe Read Bytes", .number (col.readBytes skt).1) ::
  (ascii "PCIe Write Bytes", .number (col.writeBytes skt).1) ::
  col.eventNames.zipIdx.map (fun p => (ascii "PCIe " ++ p.1.1, .number (col.raw skt p.2).1))

def pcieMembers : List (Bytes × Value) :=
  match r.pcie with
  | none => []
  | some col =>
      (List.range col.socketCount).map (fun skt =>
        (ascii "PCIe Counters Socket " ++ decimal skt, .object (pcieCounterMembers col (some skt)))) ++
      [(ascii "PCIe Counters Aggregate", .object (pcieCounterMembers col none))]

def acceleratorsMember : List (Bytes × Value) :=
  match r.accelerators with
  | none => []
  | some accs => [(ascii "Accelerators", .object (acceleratorMembers accs))]

/-- The tree: the system with its sockets, their cores and their threads. -/
def systemValue (s : SystemRoot) : Value :=
  .object
    ([(ascii "Interval us", .number r.interval.1),
      (ascii "Object", .string (ascii "SystemRoot")),
      (ascii "Number of sockets", .number (decimal s.sockets.length)),
      (ascii "Sockets", .array (s.sockets.map (fun socket => .object (socketMembers r socket))))] ++
      (acceleratorsMember r ++
      [(ascii "QPI/UPI Links", .object (linkMembers r)),
        (ascii "Core Aggregate", .object (basicMembers r .system)),
        (ascii "Uncore Aggregate", .object (uncoreMembers r .system)),
        (ascii "PCIe Bandwidth", .object (pcieMembers r))]))

end Values

/-! ## Each function prints its part -/

section Parts

variable (r : Readings)

theorem plain_cStateNames : ∀ name ∈ cStateNames, Plain name := by
  intro name member
  obtain ⟨i, -, rfl⟩ := List.mem_map.mp member
  exact (by decide : Plain (ascii "CStateResidency[")).append
    ((plain_decimal i).append (by decide))

theorem plain_coreCounterNames : ∀ name ∈ coreCounterNames, Plain name := by decide

theorem plain_energyCounterNames : ∀ name ∈ energyCounterNames, Plain name := by
  intro name member
  rcases List.mem_cons.mp member with rfl | member
  · decide
  · exact plain_cStateNames name member

theorem plain_uncoreCounterNames (nearMemory : Bool) :
    ∀ name ∈ uncoreCounterNames nearMemory, Plain name := by
  cases nearMemory with
  | false => decide
  | true => decide

theorem plain_linkNames (j : Nat) : ∀ name ∈ linkNames j, Plain name := by
  intro name member
  obtain ⟨literal, isLiteral, rfl⟩ := List.mem_map.mp member
  refine Plain.append ?_ (plain_decimal j)
  clear member
  revert literal
  decide

theorem prints_basic (site : Site) :
    Prints (Member Text) (printBasicCounterState r site) .newline (basicMembers r site) := by
  have core := (prints_counters (r.basic site) plain_coreCounterNames).inObject
    (ascii "Core Counters") (by decide)
  have energy := (prints_counters (r.basic site) plain_energyCounterNames).inObject
    (ascii "Energy Counters") (by decide)
  have memory := (prints_counters (r.basic site)
    (by decide : ∀ name ∈ memoryCounterNames, Plain name)).inLastObject
    (ascii "Core Memory Bandwidth Counters") (by decide)
  exact core.seq (energy.seq memory)

theorem prints_uncore (site : Site) :
    Prints (Member Text) (printUncoreCounterState r site) .newline (uncoreMembers r site) := by
  have first := prints_counters (r.uncore site)
    (plain_uncoreCounterNames r.nearMemoryMetricsAvailable)
  have frequencies : Prints (Member Text) ((r.uncoreFrequencies site).zipIdx.forM
      (fun p => printCounter (frequencyName p.2) p.1.1)) .comma
      ((r.uncoreFrequencies site).zipIdx.map (fun p => (frequencyName p.2, .number p.1.1))) := by
    rw [List.map_eq_flatMap]
    refine prints_forM _ (fun p _ => prints_counter _ ?_ p.1.2)
    exact (by decide : Plain (ascii "Uncore Frequency Die ")).append (plain_decimal p.2)
  have ratios := prints_counters (r.uncore site) (by decide : ∀ name ∈ ratioNames, Plain name)
  have states := prints_counters (r.uncore site) plain_cStateNames
  exact (first.seq (frequencies.seq (ratios.seq states))).inLastObject
    (ascii "Uncore Counters") (by decide)

theorem prints_id (name : Bytes) (plain : Plain name) (id : Int) :
    Prints (Member Text) (printCounter name (decimalInt id)) .comma
      [(name, .number (decimalInt id))] :=
  prints_counter name plain (isNumber_decimalInt id)

theorem prints_object_text (kind : Bytes) (plain : Plain kind) :
    Prints (Member Text) (printText (ascii "Object") kind) .comma [(ascii "Object", .string kind)] :=
  prints_text (ascii "Object") kind (by decide) plain

theorem prints_thread (ht : HyperThread) :
    Prints (Member Text) (dispatchHyperThread r ht) .newline (threadMembers r ht) := by
  have object := prints_object_text (ascii "HyperThread") (by decide)
  have thread := prints_id (ascii "Thread ID") (by decide) ht.threadID
  have os := prints_id (ascii "OS ID") (by decide) ht.osID
  exact object.seq (thread.seq (os.seq (prints_basic r (.thread ht.osID))))

theorem prints_core (c : Topology.Core) :
    Prints (Member Text) (dispatchCore r c) .comma (coreMembers r c) := by
  have object := prints_object_text (ascii "Core") (by decide)
  have number := prints_counter (ascii "Number of threads") (by decide)
    (isNumber_decimal c.threads.length)
  have threads := prints_list (ascii "Threads") (by decide)
    (prints_elements (fun ht (_ : ht ∈ c.threads) => ⟨_, prints_thread r ht⟩))
  have core := prints_id (ascii "Core ID") (by decide) c.socketUniqueCoreID
  have hwCore := prints_id (ascii "HW Core ID") (by decide) c.coreID
  have module := prints_id (ascii "Module ID") (by decide) c.moduleID
  have tile := prints_id (ascii "Tile ID") (by decide) c.tileID
  have die := prints_id (ascii "Die ID") (by decide) c.dieID
  have dieGroup := prints_id (ascii "Die Group ID") (by decide) c.dieGroupID
  have socket := prints_id (ascii "Socket ID") (by decide) c.socketID
  exact object.seq (number.seq (threads.seq (core.seq (hwCore.seq (module.seq (tile.seq
    (die.seq (dieGroup.seq socket))))))))

theorem prints_uncoreKind (socketID : Int) (kind : UncoreKind) :
    Prints (Member Text) (dispatchUncore r socketID kind) .newline
      ((ascii "Object", .string (uncoreKindText kind)) :: uncoreMembers r (.socket socketID)) := by
  cases kind with
  | server =>
      exact (prints_object_text (ascii "ServerUncore") (by decide)).seq
        (prints_uncore r (.socket socketID))
  | client =>
      exact (prints_object_text (ascii "ClientUncore") (by decide)).seq
        (prints_uncore r (.socket socketID))

theorem prints_socket (s : Socket) :
    Prints (Member Text) (dispatchSocket r s) .newline (socketMembers r s) := by
  have object := prints_object_text (ascii "Socket") (by decide)
  have socket := prints_id (ascii "Socket ID") (by decide) s.socketID
  have number := prints_counter (ascii "Number of cores") (by decide)
    (isNumber_decimal s.cores.length)
  have cores := prints_list (ascii "Cores") (by decide)
    (prints_elements (fun c (_ : c ∈ s.cores) => ⟨_, prints_core r c⟩))
  have uncore := (prints_uncoreKind r s.socketID s.uncore).inObject (ascii "Uncore") (by decide)
  have aggregate := (prints_basic r (.socket s.socketID)).inLastObject
    (ascii "Core Aggregate") (by decide)
  exact object.seq (socket.seq (number.seq (cores.seq (uncore.seq aggregate))))

/-- A name made of a text and a number. -/
theorem label_append {name : Bytes} (label : Label name) (i : Nat) : Label (name ++ decimal i) :=
  ⟨label.1.append (plain_decimal i), by simp [label.2]⟩

theorem prints_accelerators (accs : Accelerators) :
    Prints (Member Text) (printAccelCounterState accs) .comma (acceleratorMembers accs) := by
  rw [acceleratorMembers, List.map_eq_flatMap]
  refine prints_forM _ (fun i _ => Prints.inObject (e := .comma) ?_ _ ?_)
  · rw [List.map_eq_flatMap]
    exact prints_forM _ (fun p _ => prints_counter p.1.1 p.1.2 (accs.value i p.2).2)
  · refine ⟨accs.counterName.2.append ?_, by simp [ascii]⟩
    exact (by decide : Plain (ascii " Counters Device ")).append (plain_decimal i)

theorem prints_links : Prints (Member Text) (printSystemCounterState r) .comma (linkMembers r) := by
  rw [linkMembers, List.map_eq_flatMap]
  refine prints_forM _ (fun i _ => Prints.inObject (e := .comma) ?_ _ (label_append (by decide) i))
  have cxl := prints_counters (r.cxl i) (by decide : ∀ name ∈ cxlNames, Plain name)
  exact cxl.seq (prints_forM _ (fun j _ => prints_counters (r.link i j) (plain_linkNames j)))

theorem prints_pcieCounters (col : PCIe) (skt : Option Nat) :
    Prints (Member Text) (printPCIeCounters col skt) .comma (pcieCounterMembers col skt) := by
  have read := prints_counter (ascii "PCIe Read Bytes") (by decide) (col.readBytes skt).2
  have write := prints_counter (ascii "PCIe Write Bytes") (by decide) (col.writeBytes skt).2
  have events : Prints (Member Text) (col.eventNames.zipIdx.forM
      (fun p => printCounter (ascii "PCIe " ++ p.1.1) (col.raw skt p.2).1)) .comma
      (col.eventNames.zipIdx.map
        (fun p => (ascii "PCIe " ++ p.1.1, .number (col.raw skt p.2).1))) := by
    rw [List.map_eq_flatMap]
    refine prints_forM _ (fun p _ => prints_counter _ ?_ (col.raw skt p.2).2)
    exact (by decide : Plain (ascii "PCIe ")).append p.1.2
  exact read.seq (write.seq events)

theorem prints_pcie : ∃ e, Prints (Member Text) (printPCIeCounterState r) e (pcieMembers r) := by
  rw [printPCIeCounterState, pcieMembers]
  rcases r.pcie with - | col
  · exact ⟨_, prints_nothing⟩
  · refine ⟨.newline, ?_⟩
    have sockets : Prints (Member Text) ((List.range col.socketCount).forM (fun skt =>
        printObject (ascii "PCIe Counters Socket " ++ decimal skt) .delimiterAndNewLine
          (printPCIeCounters col (some skt)))) .comma
        ((List.range col.socketCount).map (fun skt =>
          (ascii "PCIe Counters Socket " ++ decimal skt,
            .object (pcieCounterMembers col (some skt))))) := by
      rw [List.map_eq_flatMap]
      exact prints_forM _ (fun skt _ =>
        (prints_pcieCounters col (some skt)).inObject _ (label_append (by decide) skt))
    exact sockets.seq ((prints_pcieCounters col none).inLastObject
      (ascii "PCIe Counters Aggregate") (by decide))

theorem prints_acceleratorsMember :
    Prints (Member Text) (printAccelerators r) .comma (acceleratorsMember r) := by
  rw [printAccelerators, acceleratorsMember]
  rcases r.accelerators with - | accs
  · exact prints_nothing
  · exact (prints_accelerators accs).inObject (ascii "Accelerators") (by decide)

end Parts

/-- For every tree and all readings, what is printed is a JSON document for the tree, no exception is
thrown, and the indentation is back at level zero. -/
theorem dispatchSystemRoot_document (r : Readings) (s : SystemRoot) :
    ∃ printed, dispatchSystemRoot r s JSONPrinter.fresh = .ok ((), printed) ∧
      Document (systemValue r s) printed.ss.content ∧ printed.indentation.len = 0 ∧
      printed.indentation.indent = [] := by
  have interval := prints_counter (ascii "Interval us") (by decide) r.interval.2
  have object := prints_object_text (ascii "SystemRoot") (by decide)
  have number := prints_counter (ascii "Number of sockets") (by decide)
    (isNumber_decimal s.sockets.length)
  have sockets := prints_list (ascii "Sockets") (by decide)
    (prints_elements (fun c (_ : c ∈ s.sockets) => ⟨_, prints_socket r c⟩))
  have accelerators := prints_acceleratorsMember r
  have links := (prints_links r).inObject (ascii "QPI/UPI Links") (by decide)
  have basic := (prints_basic r .system).inObject (ascii "Core Aggregate") (by decide)
  have uncore := (prints_uncore r .system).inObject (ascii "Uncore Aggregate") (by decide)
  obtain ⟨e, inner⟩ := prints_pcie r
  have pcie := inner.inLastObject (ascii "PCIe Bandwidth") (by decide)
  have members := interval.seq (object.seq (number.seq (sockets.seq (accelerators.seq (links.seq
    (basic.seq (uncore.seq pcie)))))))
  obtain ⟨inside, ran, separated⟩ := encloses members [] (by decide : (123 : UInt8) ≠ 44)
    .newLineOnly 125 0 []
  refine ⟨_, ran, ?_, rfl, rfl⟩
  refine ⟨[], 123 :: (inside ++ [125]), [13, 10], ?_, blank_nil, .object separated, blank_eol⟩
  simp [standing, overlaid, lineEnd, spaces]

end Pcm.JsonPrinter
