import Pcm.Lib.JsonScan

/-!
# A pushdown automaton for JSON texts

The automaton reads a text from left to right with the arrays and objects that are open on its stack, so a
text that is pasted together from fragments can be read fragment by fragment. What it accepts is a document;
it does not know all of them: of the numbers only those without sign, fraction and exponent, and no escapes
by code points.
-/

namespace Pcm.Json

open StdString

/-! ## The automaton -/

/-- What is open. -/
inductive Frame
  | array
  | object
  deriving DecidableEq, Repr

/-- What comes next: a value, a value or the end of an empty array, a name, a name or the end of an empty
object, a colon, or what follows a value; or the rest of a string, of a name, of a number, or of a word. -/
inductive Mode
  | value
  | first
  | key
  | firstKey
  | colon
  | after
  | string (isName : Bool)
  | escape (isName : Bool)
  | number (digits : Bytes)
  | word (rest : Bytes)
  deriving DecidableEq, Repr

abbrev Config := Mode × List Frame

def isBlank (c : UInt8) : Bool := c = 32 || c = 9 || c = 10 || c = 13

def beginValue (stack : List Frame) (c : UInt8) : Option Config :=
  if c = 34 then some (.string false, stack)
  else if c = 91 then some (.first, .array :: stack)
  else if c = 123 then some (.firstKey, .object :: stack)
  else if isdigit c then some (.number [c], stack)
  else if c = 116 then some (.word [114, 117, 101], stack)
  else if c = 102 then some (.word [97, 108, 115, 101], stack)
  else if c = 110 then some (.word [117, 108, 108], stack)
  else none

def endValue (stack : List Frame) (c : UInt8) : Option Config :=
  if isBlank c then some (.after, stack)
  else
    match stack with
    | .array :: outer =>
        if c = 44 then some (.value, .array :: outer)
        else if c = 93 then some (.after, outer)
        else none
    | .object :: outer =>
        if c = 44 then some (.key, .object :: outer)
        else if c = 125 then some (.after, outer)
        else none
    | [] => none

def step : Config → UInt8 → Option Config
  | (.value, stack), c => if isBlank c then some (.value, stack) else beginValue stack c
  | (.first, stack), c =>
      if isBlank c then some (.first, stack)
      else if c = 93 then some (.after, stack.tail)
      else beginValue stack c
  | (.key, stack), c =>
      if isBlank c then some (.key, stack)
      else if c = 34 then some (.string true, stack)
      else none
  | (.firstKey, stack), c =>
      if isBlank c then some (.firstKey, stack)
      else if c = 34 then some (.string true, stack)
      else if c = 125 then some (.after, stack.tail)
      else none
  | (.colon, stack), c =>
      if isBlank c then some (.colon, stack)
      else if c = 58 then some (.value, stack)
      else none
  | (.after, stack), c => endValue stack c
  | (.string isName, stack), c =>
      if c = 34 then some (if isName then .colon else .after, stack)
      else if c = 92 then some (.escape isName, stack)
      else if c < 32 then none
      else some (.string isName, stack)
  | (.escape isName, stack), c => if c ∈ escapes then some (.string isName, stack) else none
  | (.number digits, stack), c =>
      if isdigit c then some (.number (digits ++ [c]), stack)
      else if digits.head? = some 48 ∧ digits ≠ [48] then none
      else endValue stack c
  | (.word [], stack), c => endValue stack c
  | (.word (expected :: rest), stack), c => if c = expected then some (.word rest, stack) else none

def steps : Config → Bytes → Option Config
  | s, [] => some s
  | s, c :: text => (step s c).bind (fun s => steps s text)

theorem steps_append (s : Config) (a b : Bytes) : steps s (a ++ b) = (steps s a).bind (fun s => steps s b) := by
  induction a generalizing s with
  | nil => rfl
  | cons c a ih =>
      rw [List.cons_append, steps, steps]
      cases step s c with
      | none => rfl
      | some s => exact ih s

theorem steps_append_of_eq {s t : Config} {a : Bytes} (first : steps s a = some t) (b : Bytes) :
    steps s (a ++ b) = steps t b := by
  rw [steps_append, first]
  rfl

theorem steps_cons_of_eq {s t : Config} {c : UInt8} (first : step s c = some t) (b : Bytes) :
    steps s (c :: b) = steps t b := by
  rw [steps, first]
  rfl

/-! ## What has been read -/

/-- Items with a comma after each of them, and white space. -/
def Front {α : Type} (Item : α → Bytes → Prop) (body : Bytes) : Prop :=
  Blank body ∨ ∃ items body' before, items ≠ [] ∧ Separated Item items body' ∧ Blank before ∧
    body = body' ++ 44 :: before

/-- A value can begin after this text, with these arrays and objects open. -/
def Begins : List Frame → Bytes → Prop
  | [], text => Blank text
  | .array :: outer, text => ∃ outside body, Begins outer outside ∧ Front Text body ∧
      text = outside ++ 91 :: body
  | .object :: outer, text => ∃ outside body name before after, Begins outer outside ∧
      Front (Member Text) body ∧ Chars name ∧ Blank before ∧ Blank after ∧
      text = outside ++ 123 :: (body ++ (quoted name ++ (before ++ 58 :: after)))

/-- A string can begin after this text, as a value or as a name. -/
def StringBegins : Bool → List Frame → Bytes → Prop
  | false, stack, text => Begins stack text
  | true, .object :: outer, text => ∃ outside body, Begins outer outside ∧ Front (Member Text) body ∧
      text = outside ++ 123 :: body
  | true, _, _ => False

/-- The text ends with a value. -/
def Ended (stack : List Frame) (text : Bytes) : Prop :=
  ∃ before value inner blank, Begins stack before ∧ Text value inner ∧ Blank blank ∧
    text = before ++ (inner ++ blank)

/-- The texts after which the automaton is in a configuration. -/
def Reads : Config → Bytes → Prop
  | (.value, stack), text => Begins stack text
  | (.first, .array :: outer), text => ∃ outside blank, Begins outer outside ∧ Blank blank ∧
      text = outside ++ 91 :: blank
  | (.first, _), _ => False
  | (.key, stack), text => StringBegins true stack text
  | (.firstKey, .object :: outer), text => ∃ outside blank, Begins outer outside ∧ Blank blank ∧
      text = outside ++ 123 :: blank
  | (.firstKey, _), _ => False
  | (.colon, stack), text => ∃ before name blank, StringBegins true stack before ∧ Chars name ∧
      Blank blank ∧ text = before ++ (quoted name ++ blank)
  | (.after, stack), text => Ended stack text
  | (.string isName, stack), text => ∃ before chars, StringBegins isName stack before ∧ Chars chars ∧
      text = before ++ 34 :: chars
  | (.escape isName, stack), text => ∃ before chars, StringBegins isName stack before ∧ Chars chars ∧
      text = before ++ 34 :: (chars ++ [92])
  | (.number digits, stack), text => ∃ before, Begins stack before ∧ Digits digits ∧
      text = before ++ digits
  | (.word rest, stack), text => ∃ before read, Begins stack before ∧
      read ++ rest ∈ [ascii "true", ascii "false", ascii "null"] ∧ text = before ++ read

section Fronts

variable {α : Type} {Item : α → Bytes → Prop} {body text after : Bytes} {item : α}

theorem Front.blank {blank : Bytes} (front : Front Item body) (isBlank : Blank blank) :
    Front Item (body ++ blank) := by
  rcases front with all | ⟨items, body', before, some, separated, blankBefore, rfl⟩
  · exact Or.inl (all.append isBlank)
  · refine Or.inr ⟨items, body', before ++ blank, some, separated, blankBefore.append isBlank, ?_⟩
    rw [List.append_assoc, List.cons_append]

/-- The last item. -/
theorem Front.close (front : Front Item body) (isItem : Item item text) (blankAfter : Blank after) :
    ∃ items, items ≠ [] ∧ Separated Item items (body ++ (text ++ after)) := by
  rcases front with all | ⟨items, body', before, some, separated, blankBefore, rfl⟩
  · exact ⟨[item], List.cons_ne_nil _ _, .last all isItem blankAfter⟩
  · refine ⟨items ++ [item], by simp, ?_⟩
    have whole := separated.snoc some blankBefore isItem blankAfter
    simpa using whole

/-- One more item with its comma. -/
theorem Front.comma (front : Front Item body) (isItem : Item item text) (blankAfter : Blank after) :
    Front Item (body ++ (text ++ after) ++ [44]) := by
  obtain ⟨items, some, separated⟩ := front.close isItem blankAfter
  exact Or.inr ⟨items, _, [], some, separated, blank_nil, rfl⟩

end Fronts

theorem blank_singleton {c : UInt8} (blank : isBlank c = true) : Blank [c] := by
  intro d member
  rw [List.mem_singleton.mp member]
  simp only [isBlank, Bool.or_eq_true, decide_eq_true_eq] at blank
  rcases blank with ((space | tab) | line) | carriage
  · exact Or.inl space
  · exact Or.inr (Or.inl tab)
  · exact Or.inr (Or.inr (Or.inl line))
  · exact Or.inr (Or.inr (Or.inr carriage))

theorem Chars.append {a b : Bytes} (left : Chars a) (right : Chars b) : Chars (a ++ b) := by
  induction left with
  | nil => exact right
  | plain itself _ ih => exact .plain itself ih
  | escape known _ ih => exact .escape known ih
  | @unicode digits rest four hex _ ih =>
      have whole := Chars.unicode four hex ih
      simpa using whole

/-! ## Soundness -/

section Steps

variable {stack : List Frame} {text : Bytes} {c : UInt8} {s : Config}

theorem Begins.blank (begins : Begins stack text) (isBlank : Blank [c]) : Begins stack (text ++ [c]) := by
  match stack with
  | [] => exact Blank.append begins isBlank
  | .array :: outer =>
      obtain ⟨outside, body, outer, front, rfl⟩ := begins
      exact ⟨outside, body ++ [c], outer, front.blank isBlank, by simp⟩
  | .object :: outer =>
      obtain ⟨outside, body, name, before, after, outer, front, chars, blankBefore, blankAfter, rfl⟩ := begins
      exact ⟨outside, body, name, before, after ++ [c], outer, front, chars, blankBefore,
        blankAfter.append isBlank, by simp⟩

theorem StringBegins.blank (begins : StringBegins true stack text) (isBlank : Blank [c]) :
    StringBegins true stack (text ++ [c]) := by
  match stack, begins with
  | .object :: outer, ⟨outside, body, begins, front, same⟩ =>
      exact ⟨outside, body ++ [c], begins, front.blank isBlank, by simp [same]⟩

/-- The first character of a value. -/
theorem reads_beginValue (begins : Begins stack text) (next : beginValue stack c = some s) :
    Reads s (text ++ [c]) := by
  simp only [beginValue] at next
  split at next
  · rename_i quote
    obtain rfl := Option.some.inj next
    exact ⟨text, [], begins, .nil, by rw [quote]⟩
  split at next
  · rename_i bracket
    obtain rfl := Option.some.inj next
    exact ⟨text, [], begins, blank_nil, by rw [bracket]⟩
  split at next
  · rename_i brace
    obtain rfl := Option.some.inj next
    exact ⟨text, [], begins, blank_nil, by rw [brace]⟩
  split at next
  · rename_i digit
    obtain rfl := Option.some.inj next
    exact ⟨text, begins, ⟨List.cons_ne_nil _ _, by simpa using digit⟩, rfl⟩
  split at next
  · rename_i letter
    obtain rfl := Option.some.inj next
    exact ⟨text, [c], begins, by rw [letter]; decide, rfl⟩
  split at next
  · rename_i letter
    obtain rfl := Option.some.inj next
    exact ⟨text, [c], begins, by rw [letter]; decide, rfl⟩
  split at next
  · rename_i letter
    obtain rfl := Option.some.inj next
    exact ⟨text, [c], begins, by rw [letter]; decide, rfl⟩
  · cases next

/-- An array that ends. -/
theorem ended_array {items : List Value} {outside body : Bytes} (begins : Begins stack outside)
    (separated : Separated Text items body) : Ended stack (outside ++ 91 :: (body ++ [93])) :=
  ⟨outside, _, _, [], begins, .array separated, blank_nil, by simp⟩

theorem ended_object {members : List (Bytes × Value)} {outside body : Bytes} (begins : Begins stack outside)
    (separated : Separated (Member Text) members body) :
    Ended stack (outside ++ 123 :: (body ++ [125])) :=
  ⟨outside, _, _, [], begins, .object separated, blank_nil, by simp⟩

/-- What follows a value. -/
theorem reads_endValue (ended : Ended stack text) (next : endValue stack c = some s) :
    Reads s (text ++ [c]) := by
  obtain ⟨before, value, inner, blank, begins, isText, isBlank', rfl⟩ := ended
  simp only [endValue] at next
  split at next
  · rename_i white
    obtain rfl := Option.some.inj next
    exact ⟨before, value, inner, blank ++ [c], begins, isText, isBlank'.append (blank_singleton white),
      by simp⟩
  match stack, begins with
  | .array :: outer, ⟨outside, body, begins, front, same⟩ =>
      simp only at next
      split at next
      · rename_i comma
        obtain rfl := Option.some.inj next
        exact ⟨outside, _, begins, front.comma isText isBlank', by simp [same, comma]⟩
      split at next
      · rename_i bracket
        obtain rfl := Option.some.inj next
        obtain ⟨items, -, separated⟩ := front.close isText isBlank'
        have whole := ended_array begins separated
        simpa [same, bracket, Reads] using whole
      · cases next
  | .object :: outer, ⟨outside, body, name, blank₁, blank₂, begins, front, chars, isBlank₁, isBlank₂, same⟩ =>
      have isMember : Member Text (name, value) (quoted name ++ (blank₁ ++ 58 :: (blank₂ ++ inner))) :=
        .intro chars isBlank₁ isBlank₂ isText
      simp only at next
      split at next
      · rename_i comma
        obtain rfl := Option.some.inj next
        exact ⟨outside, _, begins, front.comma isMember isBlank', by simp [same, comma]⟩
      split at next
      · rename_i brace
        obtain rfl := Option.some.inj next
        obtain ⟨members, -, separated⟩ := front.close isMember isBlank'
        have whole := ended_object begins separated
        simpa [same, brace, Reads] using whole
      · cases next

/-- A string that ends. -/
theorem reads_quote {isName : Bool} {before chars : Bytes} (begins : StringBegins isName stack before)
    (isChars : Chars chars) :
    Reads (if isName then .colon else .after, stack) (before ++ 34 :: (chars ++ [34])) := by
  cases isName with
  | false => exact ⟨before, _, _, [], begins, .string isChars, blank_nil, by simp [quoted]⟩
  | true => exact ⟨before, chars, [], begins, isChars, blank_nil, by simp [quoted]⟩

theorem reads_colon {before name blank : Bytes} (begins : StringBegins true stack before)
    (chars : Chars name) (isBlank : Blank blank) :
    Begins stack (before ++ (quoted name ++ blank) ++ [58]) := by
  match stack, begins with
  | .object :: outer, ⟨outside, body, begins, front, same⟩ =>
      exact ⟨outside, body, name, blank, [], begins, front, chars, isBlank, blank_nil, by simp [same]⟩

/-- What one character adds to the text. -/
theorem Reads.step {s' : Config} (reads : Reads s text) (next : step s c = some s') :
    Reads s' (text ++ [c]) := by
  obtain ⟨mode, stack⟩ := s
  cases mode with
  | value =>
      simp only [Json.step] at next
      split at next
      · rename_i white
        obtain rfl := Option.some.inj next
        exact Begins.blank reads (blank_singleton white)
      · exact reads_beginValue reads next
  | first =>
      match stack, reads with
      | .array :: outer, ⟨outside, blank, begins, white, same⟩ =>
          simp only [Json.step] at next
          split at next
          · rename_i more
            obtain rfl := Option.some.inj next
            exact ⟨outside, blank ++ [c], begins, white.append (blank_singleton more), by simp [same]⟩
          split at next
          · rename_i bracket
            obtain rfl := Option.some.inj next
            have whole := ended_array begins (.nil white)
            simpa [same, bracket, Reads] using whole
          · have item : Begins (.array :: outer) text := ⟨outside, blank, begins, Or.inl white, same⟩
            exact reads_beginValue item next
  | key =>
      simp only [Json.step] at next
      split at next
      · rename_i white
        obtain rfl := Option.some.inj next
        exact StringBegins.blank reads (blank_singleton white)
      split at next
      · rename_i quote
        obtain rfl := Option.some.inj next
        exact ⟨text, [], reads, .nil, by rw [quote]⟩
      · cases next
  | firstKey =>
      match stack, reads with
      | .object :: outer, ⟨outside, blank, begins, white, same⟩ =>
          simp only [Json.step] at next
          split at next
          · rename_i more
            obtain rfl := Option.some.inj next
            exact ⟨outside, blank ++ [c], begins, white.append (blank_singleton more), by simp [same]⟩
          split at next
          · rename_i quote
            obtain rfl := Option.some.inj next
            exact ⟨text, [], ⟨outside, blank, begins, Or.inl white, same⟩, .nil, by rw [quote]⟩
          split at next
          · rename_i brace
            obtain rfl := Option.some.inj next
            have whole := ended_object begins (.nil white)
            simpa [same, brace, Reads] using whole
          · cases next
  | colon =>
      obtain ⟨before, name, blank, begins, chars, white, rfl⟩ := reads
      simp only [Json.step] at next
      split at next
      · rename_i more
        obtain rfl := Option.some.inj next
        exact ⟨before, name, blank ++ [c], begins, chars, white.append (blank_singleton more), by simp⟩
      split at next
      · rename_i isColon
        obtain rfl := Option.some.inj next
        rw [isColon]
        exact reads_colon begins chars white
      · cases next
  | after => exact reads_endValue reads next
  | string isName =>
      obtain ⟨before, chars, begins, isChars, rfl⟩ := reads
      simp only [Json.step] at next
      split at next
      · rename_i quote
        obtain rfl := Option.some.inj next
        have whole := reads_quote begins isChars
        simpa [quote] using whole
      split at next
      · rename_i backslash
        obtain rfl := Option.some.inj next
        exact ⟨before, chars, begins, isChars, by simp [backslash]⟩
      split at next
      · cases next
      · rename_i notQuote notBackslash notControl
        obtain rfl := Option.some.inj next
        have plain : Chars [c] := .plain ⟨UInt8.not_lt.mp notControl, notQuote, notBackslash⟩ .nil
        exact ⟨before, chars ++ [c], begins, isChars.append plain, by simp⟩
  | escape isName =>
      obtain ⟨before, chars, begins, isChars, rfl⟩ := reads
      simp only [Json.step] at next
      split at next
      · rename_i known
        obtain rfl := Option.some.inj next
        exact ⟨before, chars ++ [92, c], begins, isChars.append (.escape known .nil), by simp⟩
      · cases next
  | number digits =>
      obtain ⟨before, begins, isDigits, rfl⟩ := reads
      simp only [Json.step] at next
      split at next
      · rename_i digit
        obtain rfl := Option.some.inj next
        refine ⟨before, begins, ⟨by simp, ?_⟩, by simp⟩
        intro d member
        rcases List.mem_append.mp member with old | new
        · exact isDigits.2 d old
        · rw [List.mem_singleton.mp new]
          exact digit
      split at next
      · cases next
      · rename_i notDigit noZeros
        have leading : digits.head? = some 48 → digits = [48] := by
          intro zero
          by_contra other
          exact noZeros ⟨zero, other⟩
        have isNumber : IsNumber digits :=
          ⟨[], digits, [], [], by simp, Or.inl rfl, ⟨isDigits, leading⟩, Or.inl rfl, Or.inl rfl⟩
        exact reads_endValue ⟨before, _, digits, [], begins, .number isNumber, blank_nil, by simp⟩ next
  | word rest =>
      obtain ⟨before, read, begins, known, rfl⟩ := reads
      cases rest with
      | nil =>
          rw [List.append_nil] at known
          exact reads_endValue ⟨before, _, read, [], begins, .literal known, blank_nil, by simp⟩ next
      | cons expected rest =>
          simp only [Json.step] at next
          split at next
          · rename_i same
            obtain rfl := Option.some.inj next
            exact ⟨before, read ++ [c], begins, by simpa [same] using known, by simp⟩
          · cases next

theorem Reads.steps {s' : Config} {more : Bytes} (reads : Reads s text) (next : steps s more = some s') :
    Reads s' (text ++ more) := by
  induction more generalizing s text with
  | nil =>
      obtain rfl := Option.some.inj next
      rwa [List.append_nil]
  | cons c more ih =>
      rw [Json.steps] at next
      rcases first : Json.step s c with - | middle
      · rw [first] at next
        cases next
      · rw [first] at next
        have whole := ih (reads.step first) next
        rwa [List.append_assoc, List.singleton_append] at whole

end Steps

/-- What the automaton accepts is a document. -/
theorem document_of_steps {text : Bytes} (accepted : steps (.value, []) text = some (.after, [])) :
    ∃ value, Document value text := by
  have start : Reads (.value, []) [] := blank_nil
  obtain ⟨before, value, inner, blank, blankBefore, isText, blankAfter, same⟩ := start.steps accepted
  rw [List.nil_append] at same
  exact ⟨value, before, inner, blank, same, blankBefore, isText, blankAfter⟩

/-! ## The scanner -/

/-- The scanner and the automaton agree on what is in a string. -/
def Agrees : Mode → Scan → Prop
  | .string _, s => s = .inside
  | .escape _, s => s = .escaped
  | .value, s => ∃ colon, s = .outside colon
  | .word rest, s => s = .outside false ∧ ∀ c ∈ rest, Neutral c
  | _, s => s = .outside false

section Scanner

variable {stack : List Frame} {c : UInt8} {s' : Config} {scanned : Scan}

theorem neutral_of_isBlank (white : isBlank c = true) : Neutral c :=
  neutral_of_blank (blank_singleton white) c (List.mem_singleton_self c)

theorem scan_beginValue {colon : Bool} (next : beginValue stack c = some s') :
    ∃ later, scanStep (.outside colon) c = some later ∧ Agrees s'.1 later := by
  simp only [beginValue] at next
  split at next
  · rename_i quote
    obtain rfl := Option.some.inj next
    exact ⟨.inside, by simp [scanStep, quote], rfl⟩
  split at next
  · rename_i bracket
    obtain rfl := Option.some.inj next
    exact ⟨.outside false, scanStep_neutral (by rw [bracket]; decide) colon, rfl⟩
  split at next
  · rename_i brace
    obtain rfl := Option.some.inj next
    exact ⟨.outside false, scanStep_neutral (by rw [brace]; decide) colon, rfl⟩
  split at next
  · rename_i digit
    obtain rfl := Option.some.inj next
    exact ⟨.outside false, scanStep_neutral (neutral_of_isdigit digit) colon, rfl⟩
  split at next
  · rename_i letter
    obtain rfl := Option.some.inj next
    exact ⟨.outside false, scanStep_neutral (by rw [letter]; decide) colon, rfl, forall_mem_of_all rfl⟩
  split at next
  · rename_i letter
    obtain rfl := Option.some.inj next
    exact ⟨.outside false, scanStep_neutral (by rw [letter]; decide) colon, rfl, forall_mem_of_all rfl⟩
  split at next
  · rename_i letter
    obtain rfl := Option.some.inj next
    exact ⟨.outside false, scanStep_neutral (by rw [letter]; decide) colon, rfl, forall_mem_of_all rfl⟩
  · cases next

theorem scan_endValue (next : endValue stack c = some s') :
    ∃ later, scanStep (.outside false) c = some later ∧ Agrees s'.1 later := by
  have known : c = 44 ∨ c = 93 ∨ c = 125 ∨ isBlank c = true := by
    by_contra other
    simp only [not_or] at other
    obtain ⟨comma, bracket, brace, white⟩ := other
    simp only [endValue, if_neg white, if_neg comma, if_neg bracket, if_neg brace] at next
    split at next <;> cases next
  have mode : s'.1 = .after ∨ s'.1 = .value ∨ s'.1 = .key := by
    simp only [endValue] at next
    split at next
    · exact Or.inl (congrArg Prod.fst (Option.some.inj next)).symm
    split at next
    · split at next
      · exact Or.inr (Or.inl (congrArg Prod.fst (Option.some.inj next)).symm)
      split at next
      · exact Or.inl (congrArg Prod.fst (Option.some.inj next)).symm
      · cases next
    · split at next
      · exact Or.inr (Or.inr (congrArg Prod.fst (Option.some.inj next)).symm)
      split at next
      · exact Or.inl (congrArg Prod.fst (Option.some.inj next)).symm
      · cases next
    · cases next
  have agrees : Agrees s'.1 (.outside false) := by
    rcases mode with after | value | key
    · rw [after]
      rfl
    · rw [value]
      exact ⟨false, rfl⟩
    · rw [key]
      rfl
  refine ⟨.outside false, ?_, agrees⟩
  rcases known with rfl | rfl | rfl | white
  · rfl
  · rfl
  · rfl
  · exact scanStep_neutral (neutral_of_isBlank white) false

/-- The scanner goes where the automaton goes. -/
theorem Agrees.step {s : Config} (agrees : Agrees s.1 scanned) (next : step s c = some s') :
    ∃ later, scanStep scanned c = some later ∧ Agrees s'.1 later := by
  obtain ⟨mode, stack⟩ := s
  cases mode with
  | value =>
      obtain ⟨colon, rfl⟩ := agrees
      simp only [Json.step] at next
      split at next
      · rename_i white
        obtain rfl := Option.some.inj next
        exact ⟨_, scanStep_neutral (neutral_of_isBlank white) colon, false, rfl⟩
      · exact scan_beginValue next
  | first =>
      obtain rfl := agrees
      simp only [Json.step] at next
      split at next
      · rename_i white
        obtain rfl := Option.some.inj next
        exact ⟨_, scanStep_neutral (neutral_of_isBlank white) false, rfl⟩
      split at next
      · rename_i bracket
        obtain rfl := Option.some.inj next
        exact ⟨_, scanStep_neutral (by rw [bracket]; decide) false, rfl⟩
      · exact scan_beginValue next
  | key =>
      obtain rfl := agrees
      simp only [Json.step] at next
      split at next
      · rename_i white
        obtain rfl := Option.some.inj next
        exact ⟨_, scanStep_neutral (neutral_of_isBlank white) false, rfl⟩
      split at next
      · rename_i quote
        obtain rfl := Option.some.inj next
        exact ⟨.inside, by simp [scanStep, quote], rfl⟩
      · cases next
  | firstKey =>
      obtain rfl := agrees
      simp only [Json.step] at next
      split at next
      · rename_i white
        obtain rfl := Option.some.inj next
        exact ⟨_, scanStep_neutral (neutral_of_isBlank white) false, rfl⟩
      split at next
      · rename_i quote
        obtain rfl := Option.some.inj next
        exact ⟨.inside, by simp [scanStep, quote], rfl⟩
      split at next
      · rename_i brace
        obtain rfl := Option.some.inj next
        exact ⟨.outside false, by simp [scanStep, brace], rfl⟩
      · cases next
  | colon =>
      obtain rfl := agrees
      simp only [Json.step] at next
      split at next
      · rename_i white
        obtain rfl := Option.some.inj next
        exact ⟨_, scanStep_neutral (neutral_of_isBlank white) false, rfl⟩
      split at next
      · rename_i isColon
        obtain rfl := Option.some.inj next
        exact ⟨.outside true, by simp [scanStep, isColon], true, rfl⟩
      · cases next
  | after =>
      obtain rfl := agrees
      exact scan_endValue next
  | string isName =>
      obtain rfl := agrees
      simp only [Json.step] at next
      split at next
      · rename_i quote
        obtain rfl := Option.some.inj next
        refine ⟨.outside false, by simp [scanStep, quote], ?_⟩
        cases isName <;> rfl
      split at next
      · rename_i backslash
        obtain rfl := Option.some.inj next
        exact ⟨.escaped, by simp [scanStep, backslash], rfl⟩
      split at next
      · cases next
      · rename_i notQuote notBackslash notControl
        obtain rfl := Option.some.inj next
        refine ⟨.inside, ?_, rfl⟩
        rw [scanStep, if_neg notQuote, if_neg notBackslash, if_neg notControl]
  | escape isName =>
      obtain rfl := agrees
      simp only [Json.step] at next
      split at next
      · rename_i known
        obtain rfl := Option.some.inj next
        exact ⟨.inside, if_pos (Or.inl known), rfl⟩
      · cases next
  | number digits =>
      obtain rfl := agrees
      simp only [Json.step] at next
      split at next
      · rename_i digit
        obtain rfl := Option.some.inj next
        exact ⟨_, scanStep_neutral (neutral_of_isdigit digit) false, rfl⟩
      split at next
      · cases next
      · exact scan_endValue next
  | word rest =>
      obtain ⟨rfl, neutral⟩ := agrees
      cases rest with
      | nil => exact scan_endValue next
      | cons expected rest =>
          simp only [Json.step] at next
          split at next
          · rename_i same
            obtain rfl := Option.some.inj next
            rw [List.forall_mem_cons] at neutral
            exact ⟨_, scanStep_neutral (by rw [same]; exact neutral.1) false, rfl, neutral.2⟩
          · cases next

theorem scan_of_steps {s : Config} {text : Bytes} (agrees : Agrees s.1 scanned)
    (next : steps s text = some s') : ∃ later, scan scanned text = some later ∧ Agrees s'.1 later := by
  induction text generalizing s scanned with
  | nil =>
      obtain rfl := Option.some.inj next
      exact ⟨scanned, rfl, agrees⟩
  | cons c text ih =>
      rw [steps] at next
      rcases first : Json.step s c with - | middle
      · rw [first] at next
        cases next
      · rw [first] at next
        obtain ⟨later, scanStep, agrees'⟩ := agrees.step first
        obtain ⟨last, scan, agrees''⟩ := ih agrees' next
        refine ⟨last, ?_, agrees''⟩
        rw [Json.scan, scanStep]
        exact scan

end Scanner

/-! ## Fragments -/

/-- A literal by its characters, which spares the decoding. -/
theorem ascii_ofList (l : List Char) : ascii (String.ofList l) = l.map (fun c => UInt8.ofNat c.toNat) := by
  rw [ascii, String.toList_ofList]

theorem steps_ascii {s s' : Config} {l : List Char}
    (run : steps s (l.map (fun c => UInt8.ofNat c.toNat)) = some s') :
    steps s (ascii (String.ofList l)) = some s' := by
  rw [ascii_ofList, run]

/-- What can stand between quotes. -/
def isContent : Bytes → Bool
  | [] => true
  | [c] => 32 ≤ c && c ≠ 34 && c ≠ 92
  | c :: d :: rest =>
      if c = 92 then d ∈ escapes && isContent rest
      else 32 ≤ c && c ≠ 34 && isContent (d :: rest)

theorem isContent_ascii {l : List Char} (content : isContent (l.map (fun c => UInt8.ofNat c.toNat)) = true) :
    isContent (ascii (String.ofList l)) = true := by
  rw [ascii_ofList, content]

theorem isContent_cons {c : UInt8} {rest : Bytes} (itself : 32 ≤ c ∧ c ≠ 34 ∧ c ≠ 92) :
    isContent (c :: rest) = isContent rest := by
  cases rest with
  | nil => simp [isContent, itself.1, itself.2.1, itself.2.2]
  | cons d rest => simp [isContent, itself.1, itself.2.1, itself.2.2]

theorem isContent_plain {text : Bytes} (plain : Plain text) : isContent text = true := by
  induction text with
  | nil => rfl
  | cons c text ih =>
      rw [isContent_cons (plain c List.mem_cons_self)]
      exact ih (fun d member => plain d (List.mem_cons_of_mem c member))

theorem isContent_append {a b : Bytes} (left : isContent a = true) (right : isContent b = true) :
    isContent (a ++ b) = true := by
  fun_induction isContent a with
  | case1 => exact right
  | case2 c =>
      simp only [Bool.and_eq_true, decide_eq_true_eq] at left
      rw [List.singleton_append, isContent_cons ⟨left.1.1, left.1.2, left.2⟩]
      exact right
  | case3 d rest ih =>
      simp only [Bool.and_eq_true, decide_eq_true_eq] at left
      rw [List.cons_append, List.cons_append, isContent, if_pos rfl]
      simp [left.1, ih left.2]
  | case4 c d rest notBackslash ih =>
      simp only [Bool.and_eq_true, decide_eq_true_eq] at left
      rw [List.cons_append, isContent_cons ⟨left.1.1, left.1.2, notBackslash⟩]
      exact ih left.2

/-- The automaton stays in a string. -/
theorem steps_content {text : Bytes} (content : isContent text = true) (isName : Bool) (stack : List Frame) :
    steps (.string isName, stack) text = some (.string isName, stack) := by
  have plain : ∀ {c : UInt8}, 32 ≤ c → c ≠ 34 → c ≠ 92 →
      step (.string isName, stack) c = some (.string isName, stack) := by
    intro c control quote backslash
    rw [step, if_neg quote, if_neg backslash, if_neg (UInt8.not_lt.mpr control)]
  fun_induction isContent text with
  | case1 => rfl
  | case2 c =>
      simp only [Bool.and_eq_true, decide_eq_true_eq] at content
      exact steps_cons_of_eq (plain content.1.1 content.1.2 content.2) []
  | case3 d rest ih =>
      simp only [Bool.and_eq_true, decide_eq_true_eq] at content
      have escape : step (.escape isName, stack) d = some (.string isName, stack) := if_pos content.1
      rw [steps_cons_of_eq (t := (.escape isName, stack)) rfl, steps_cons_of_eq escape]
      exact ih content.2
  | case4 c d rest notBackslash ih =>
      simp only [Bool.and_eq_true, decide_eq_true_eq] at content
      rw [steps_cons_of_eq (plain content.1.1 content.1.2 notBackslash)]
      exact ih content.2

theorem steps_digits {digits more : Bytes} (isDigits : ∀ c ∈ more, isdigit c = true) (stack : List Frame) :
    steps (.number digits, stack) more = some (.number (digits ++ more), stack) := by
  induction more generalizing digits with
  | nil => rw [List.append_nil, steps]
  | cons c more ih =>
      have digit : step (.number digits, stack) c = some (.number (digits ++ [c]), stack) :=
        if_pos (isDigits c List.mem_cons_self)
      rw [steps_cons_of_eq digit, ih (fun d member => isDigits d (List.mem_cons_of_mem c member)),
        List.append_assoc, List.singleton_append]

theorem step_digit {d : UInt8} (digit : isdigit d = true) (stack : List Frame) :
    step (.value, stack) d = some (.number [d], stack) := by
  have other : ∀ {c : UInt8}, isdigit c = false → d ≠ c := by
    rintro c notDigit rfl
    rw [digit] at notDigit
    cases notDigit
  have notBlank : isBlank d = false := by
    have space := other (c := 32) (by decide)
    have tab := other (c := 9) (by decide)
    have line := other (c := 10) (by decide)
    have carriage := other (c := 13) (by decide)
    simp [isBlank, space, tab, line, carriage]
  have quote := other (c := 34) (by decide)
  have bracket := other (c := 91) (by decide)
  have brace := other (c := 123) (by decide)
  simp [step, beginValue, notBlank, quote, bracket, brace, digit]

/-- A number, and what comes after it. -/
theorem steps_decimal {n : Nat} {stack : List Frame} {c : UInt8} {rest : Bytes}
    (notDigit : isdigit c = false) :
    steps (.value, stack) (decimal n ++ c :: rest) = steps (.after, stack) (c :: rest) := by
  obtain ⟨nonempty, isDigits⟩ := digits_decimal n
  have leading := @head_decimal n
  rcases text : decimal n with - | ⟨d, more⟩
  · exact absurd text nonempty
  rw [text] at isDigits leading
  have first := step_digit (isDigits d List.mem_cons_self) stack
  have number : step (.number (d :: more), stack) c = endValue stack c := by
    have noZeros : ¬ ((d :: more).head? = some 48 ∧ d :: more ≠ [48]) :=
      fun both => both.2 (leading both.1)
    rw [step, if_neg (by rw [notDigit]; decide), if_neg noZeros]
  rw [List.cons_append, steps_cons_of_eq first, steps_append_of_eq
    (steps_digits (fun e member => isDigits e (List.mem_cons_of_mem d member)) stack), List.singleton_append,
    steps, steps, number]
  rfl

end Pcm.Json
