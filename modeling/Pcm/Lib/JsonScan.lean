import Pcm.Lib.Json

/-!
# Scanning JSON texts

A scanner that tells the characters in strings from those outside of them. It stops at what no JSON text
has: a control character in a string, an unknown escape, and a comma or a closing brace where a value should
follow a colon. Every document gets through, so a text at which the scanner stops is no document.
-/

namespace Pcm.Json

open StdString

/-- Outside of strings, with whether the last character was a colon; in a string; after a backslash. -/
inductive Scan
  | outside (colon : Bool)
  | inside
  | escaped
  deriving DecidableEq, Repr

def scanStep : Scan → UInt8 → Option Scan
  | .outside colon, c =>
      if c = 34 then some .inside
      else if colon && (c = 44 || c = 125) then none
      else some (.outside (c = 58))
  | .inside, c =>
      if c = 34 then some (.outside false)
      else if c = 92 then some .escaped
      else if c < 32 then none
      else some .inside
  | .escaped, c => if c ∈ escapes ∨ c = 117 then some .inside else none

def scan : Scan → Bytes → Option Scan
  | s, [] => some s
  | s, c :: text => (scanStep s c).bind (fun s => scan s text)

/-! ## Parts of a text -/

theorem scan_append (s : Scan) (a b : Bytes) : scan s (a ++ b) = (scan s a).bind (fun s => scan s b) := by
  induction a generalizing s with
  | nil => rfl
  | cons c a ih =>
      rw [List.cons_append, scan, scan]
      cases scanStep s c with
      | none => rfl
      | some s => exact ih s

theorem scan_append_of_eq {s s' : Scan} {a : Bytes} (first : scan s a = some s') (b : Bytes) :
    scan s (a ++ b) = scan s' b := by
  rw [scan_append, first]
  rfl

theorem scan_cons_of_eq {s t : Scan} {c : UInt8} (first : scanStep s c = some t) (b : Bytes) :
    scan s (c :: b) = scan t b := by
  rw [scan, first]
  rfl

theorem scan_plain_cons {c : UInt8} (itself : 32 ≤ c ∧ c ≠ 34 ∧ c ≠ 92) (b : Bytes) :
    scan .inside (c :: b) = scan .inside b := by
  have step : scanStep .inside c = some .inside := by
    rw [scanStep, if_neg itself.2.1, if_neg itself.2.2, if_neg (UInt8.not_lt.mpr itself.1)]
  exact scan_cons_of_eq step b

/-- The hexadecimal digits stand for themselves. -/
theorem plain_of_isHexDigit {c : UInt8} (hex : isHexDigit c = true) : 32 ≤ c ∧ c ≠ 34 ∧ c ≠ 92 := by
  simp only [isHexDigit, isdigit, Bool.or_eq_true, Bool.and_eq_true, decide_eq_true_eq,
    UInt8.le_iff_toNat_le] at hex
  have toNat : ∀ d : UInt8, c = d → c.toNat = d.toNat := fun d same => congrArg UInt8.toNat same
  refine ⟨?_, ?_, ?_⟩
  · rw [UInt8.le_iff_toNat_le]
    have : (32 : UInt8).toNat = 32 := rfl
    simp only [UInt8.reduceToNat] at hex
    omega
  · intro same
    have := toNat 34 same
    simp only [UInt8.reduceToNat] at hex this
    omega
  · intro same
    have := toNat 92 same
    simp only [UInt8.reduceToNat] at hex this
    omega

theorem scan_plain {text : Bytes} (plain : Plain text) : scan .inside text = some .inside := by
  induction text with
  | nil => rfl
  | cons c text ih =>
      rw [scan_plain_cons (plain c List.mem_cons_self)]
      exact ih (fun d member => plain d (List.mem_cons_of_mem c member))

theorem scan_chars {text : Bytes} (chars : Chars text) : scan .inside text = some .inside := by
  induction chars with
  | nil => rfl
  | plain itself _ ih => rw [scan_plain_cons itself, ih]
  | @escape c rest known _ ih =>
      have step : scanStep .escaped c = some .inside := if_pos (Or.inl known)
      exact (scan_cons_of_eq step rest).trans ih
  | @unicode digits rest _ hex _ ih =>
      have plain : Plain digits := fun c member => plain_of_isHexDigit (hex c member)
      exact (scan_append_of_eq (scan_plain plain) rest).trans ih

theorem scan_quoted {text : Bytes} (chars : Chars text) (colon : Bool) :
    scan (.outside colon) (quoted text) = some (.outside false) := by
  rw [quoted, scan_cons_of_eq (t := .inside) rfl, scan_append_of_eq (scan_chars chars)]
  rfl

/-- A character that is no sign of the grammar. -/
def Neutral (c : UInt8) : Prop := c ≠ 34 ∧ c ≠ 44 ∧ c ≠ 125 ∧ c ≠ 58

instance decidableNeutral (c : UInt8) : Decidable (Neutral c) :=
  inferInstanceAs (Decidable (c ≠ 34 ∧ c ≠ 44 ∧ c ≠ 125 ∧ c ≠ 58))

theorem scanStep_neutral {c : UInt8} (neutral : Neutral c) (colon : Bool) :
    scanStep (.outside colon) c = some (.outside false) := by
  obtain ⟨quote, comma, brace, colon'⟩ := neutral
  simp [scanStep, quote, comma, brace, colon']

theorem scan_neutral {text : Bytes} (neutral : ∀ c ∈ text, Neutral c) :
    scan (.outside false) text = some (.outside false) := by
  induction text with
  | nil => rfl
  | cons c text ih =>
      rw [scan_cons_of_eq (scanStep_neutral (neutral c List.mem_cons_self) false)]
      exact ih (fun d member => neutral d (List.mem_cons_of_mem c member))

theorem scan_neutral_of_ne_nil {text : Bytes} (neutral : ∀ c ∈ text, Neutral c) (nonempty : text ≠ [])
    (colon : Bool) : scan (.outside colon) text = some (.outside false) := by
  cases text with
  | nil => exact absurd rfl nonempty
  | cons c text =>
      rw [scan_cons_of_eq (scanStep_neutral (neutral c List.mem_cons_self) colon)]
      exact scan_neutral (fun d member => neutral d (List.mem_cons_of_mem c member))

theorem neutral_of_blank {text : Bytes} (blank : Blank text) : ∀ c ∈ text, Neutral c := by
  intro c member
  rcases blank c member with rfl | rfl | rfl | rfl <;> decide

theorem neutral_of_isdigit {c : UInt8} (digit : isdigit c = true) : Neutral c := by
  refine ⟨?_, ?_, ?_, ?_⟩ <;> rintro rfl <;> exact absurd digit (by decide)

theorem IsNumber.neutral {text : Bytes} (isNumber : IsNumber text) :
    (∀ c ∈ text, Neutral c) ∧ text ≠ [] :=
  isNumber.each (fun _ digit => neutral_of_isdigit digit) (by simp [Neutral])

/-! ## Values and documents -/

/-- A text after which the scanner is outside of strings again, and after no colon. -/
def Closed (text : Bytes) : Prop := scan (.outside false) text = some (.outside false)

theorem Closed.append {a b : Bytes} (left : Closed a) (right : Closed b) : Closed (a ++ b) :=
  (scan_append_of_eq left b).trans right

theorem closed_blank {text : Bytes} (blank : Blank text) : Closed text :=
  scan_neutral (neutral_of_blank blank)

theorem closed_separated {α : Type} {Item : α → Bytes → Prop} {items : List α} {body : Bytes}
    (separated : Separated Item items body)
    (each : ∀ item text, text.length ≤ body.length → Item item text → Closed text) : Closed body := by
  induction separated with
  | nil blank => exact closed_blank blank
  | @last before item text after blankBefore isItem blankAfter =>
      have inner : Closed text := each item text (by simp; omega) isItem
      exact (closed_blank blankBefore).append (inner.append (closed_blank blankAfter))
  | @cons before item text after next rest body blankBefore isItem blankAfter _ ih =>
      have inner : Closed text := each item text (by simp; omega) isItem
      have later : Closed body := ih (fun item text short => each item text (by simp; omega))
      have comma : Closed (44 :: body) := later
      exact (closed_blank blankBefore).append
        (inner.append ((closed_blank blankAfter).append comma))

/-- A value is closed also after a colon. -/
theorem scan_text {value : Value} {text : Bytes} (isText : Text value text) (colon : Bool) :
    scan (.outside colon) text = some (.outside false) := by
  -- strong induction on the length: the parts of a value are shorter than the value
  induction length : text.length using Nat.strong_induction_on generalizing value text colon with
  | _ n ih =>
      cases isText with
      | string chars => exact scan_quoted chars colon
      | number isNumber =>
          exact scan_neutral_of_ne_nil isNumber.neutral.1 isNumber.neutral.2 colon
      | literal known =>
          simp only [List.mem_cons, List.not_mem_nil, or_false] at known
          rcases known with rfl | rfl | rfl <;> cases colon <;> decide
      | @array elements body separated =>
          have inner : Closed body := closed_separated separated (fun item text short isText =>
            ih text.length (by simp at length; omega) isText false rfl)
          rw [scan_cons_of_eq (t := .outside false) (by cases colon <;> rfl), scan_append_of_eq inner]
          rfl
      | @object members body separated =>
          have inner : Closed body := by
            refine closed_separated separated (fun item text short isMember => ?_)
            cases isMember with
            | @intro name value text before after chars blankBefore blankAfter isText =>
                have value' := ih text.length (by simp [quoted] at length short; omega) isText
                rw [Closed, scan_append_of_eq (scan_quoted chars false),
                  scan_append_of_eq (closed_blank blankBefore),
                  scan_cons_of_eq (t := .outside true) rfl]
                rcases eq_or_ne after [] with rfl | nonempty
                · exact value' true rfl
                · rw [scan_append_of_eq (scan_neutral_of_ne_nil (neutral_of_blank blankAfter) nonempty
                    true)]
                  exact value' false rfl
          rw [scan_cons_of_eq (t := .outside false) (by cases colon <;> rfl), scan_append_of_eq inner]
          rfl

/-- No value has an empty text. -/
theorem no_empty_text (value : Value) : ¬ Text value [] := by
  intro isText
  have after := scan_text isText true
  cases after

/-- Every document gets through the scanner. -/
theorem Document.scan {value : Value} {text : Bytes} (document : Document value text) : Closed text := by
  obtain ⟨before, inner, after, rfl, blankBefore, isText, blankAfter⟩ := document
  exact (closed_blank blankBefore).append
    (Closed.append (scan_text isText false) (closed_blank blankAfter))

end Pcm.Json
