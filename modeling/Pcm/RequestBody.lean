import Mathlib.Data.List.Count
import Pcm.Lib.Digits
import Pcm.RequestTermination

/-!
# The body of a request

What becomes of a body that is well formed: a chunked one (`pcm-sensor-server.cpp:2619-2645`), one whose
length is announced (`pcm-sensor-server.cpp:2943-3041`), and the trailers of a chunked one
(`pcm-sensor-server.cpp:3009-3029`). The decoder reads three lines after the data of a chunk where there
is only one, takes a size that begins with a zero for the last one, and reads only one trailer line; a
counted body is read but not kept.
-/

namespace Pcm.Http

open StdString IStream Bounded

/-! ## Chunked bodies -/

/-- A size in hexadecimal digits of either case, perhaps with leading zeros. -/
structure SizeDigits (digits : Bytes) (size : Nat) : Prop where
  nonempty : digits ≠ []
  digit : ∀ c ∈ digits, digitValue c < 16
  value : digitsToNat 16 digits = size

/-- The texts in the chunked format for a list of pieces, up to the line of the last chunk. -/
inductive Chunked : List Bytes → Bytes → Prop
  | last {zeros} (nonempty : zeros ≠ []) (zero : ∀ c ∈ zeros, c = 48) :
      Chunked [] (zeros ++ [13, 10])
  | chunk {digits data pieces text} (size : SizeDigits digits data.length) (nonempty : data ≠ [])
      (further : Chunked pieces text) :
      Chunked (data :: pieces) (digits ++ [13, 10] ++ data ++ [13, 10] ++ text)

/-- A text is decoded: the pieces one after the other, and the stream right after the last chunk. -/
def Decoded (maxSize : Nat) (pieces : List Bytes) (text rest : Bytes) : Prop :=
  (readChunkedData maxSize (fresh (text ++ rest))).Returns (.ok (pieces.flatten, fresh rest))

/-- Every text for the pieces is decoded. -/
def DecodesChunks (maxSize : Nat) (pieces : List Bytes) : Prop :=
  ∀ text rest, Chunked pieces text → Decoded maxSize pieces text rest

section Sizes

variable {digits data : Bytes} {size : Nat}

/-- The digits end before the end of the line. -/
theorem SizeDigits.line (written : SizeDigits digits size) : 10 ∉ digits ++ [13] := by
  intro member
  rcases List.mem_append.mp member with inside | last
  · exact absurd (written.digit 10 inside) (by decide)
  · revert last
    decide

/-- A leading zero does not change the size. -/
theorem SizeDigits.zero (written : SizeDigits digits size) : SizeDigits (48 :: digits) size where
  nonempty := List.cons_ne_nil _ _
  digit := by
    intro c member
    rcases List.mem_cons.mp member with rfl | inside
    · decide
    · exact written.digit c inside
  value := by
    rw [← written.value]
    rfl

theorem SizeDigits.snoc (written : SizeDigits digits size) {c : UInt8} (digit : digitValue c < 16) :
    SizeDigits (digits ++ [c]) (16 * size + digitValue c) where
  nonempty := by simp
  digit := by
    intro d member
    rcases List.mem_append.mp member with inside | last
    · exact written.digit d inside
    · rw [List.mem_singleton.mp last]
      exact digit
  value := by
    rw [digitsToNat, List.foldl_append, ← digitsToNat, written.value]
    simp only [List.foldl_cons, List.foldl_nil]
    omega

theorem exists_digit {d : Nat} (small : d < 16) : ∃ c, digitValue c = d := by
  have all : ∀ d < 16, digitValue (UInt8.ofNat (if d < 10 then 48 + d else 87 + d)) = d := by decide
  exact ⟨_, all d small⟩

theorem exists_sizeDigits (size : Nat) : ∃ digits, SizeDigits digits size := by
  induction size using Nat.strong_induction_on with
  | _ size ih =>
      obtain ⟨c, value⟩ := exists_digit (d := size % 16) (Nat.mod_lt _ (by decide))
      by_cases small : size < 16
      · rw [Nat.mod_eq_of_lt small] at value
        refine ⟨[c], List.cons_ne_nil _ _, ?_, ?_⟩
        · intro d member
          rw [List.mem_singleton.mp member, value]
          exact small
        · simp [digitsToNat, value]
      · obtain ⟨digits, written⟩ := ih (size / 16) (by omega)
        have longer := written.snoc (c := c) (by omega)
        rw [value, Nat.div_add_mod] at longer
        exact ⟨_, longer⟩

theorem exists_chunked (pieces : List Bytes) (nonempty : ∀ data ∈ pieces, data ≠ []) :
    ∃ text, Chunked pieces text := by
  induction pieces with
  | nil => exact ⟨[48] ++ [13, 10], .last (by decide) (by simp)⟩
  | cons data pieces ih =>
      obtain ⟨digits, size⟩ := exists_sizeDigits data.length
      obtain ⟨text, further⟩ := ih (fun d member => nonempty d (List.mem_cons_of_mem _ member))
      exact ⟨_, .chunk size (nonempty data List.mem_cons_self) further⟩

end Sizes

/-! ### No chunk -/

theorem not_mem_zeros {zeros : Bytes} (zero : ∀ c ∈ zeros, c = 48) : 10 ∉ zeros ++ [13] := by
  intro member
  rcases List.mem_append.mp member with inside | last
  · exact absurd (zero 10 inside) (by decide)
  · revert last
    decide

/-- A line that begins with a zero ends the loop before any data. -/
theorem readChunkedData_zero (maxSize : Nat) {line : Bytes} (rest : Bytes) (within : 10 ∉ 48 :: line) :
    (readChunkedData maxSize (fresh (48 :: line ++ 10 :: rest))).Returns (.ok ([], fresh rest)) := by
  refine ⟨1, ?_⟩
  simp only [readChunkedData, getline_line within, loop, iterate, chunk]
  rfl

theorem decodesChunks_nil (maxSize : Nat) : DecodesChunks maxSize [] := by
  intro text rest encoded
  cases encoded with
  | @last zeros nonempty zero =>
      have within := not_mem_zeros zero
      obtain ⟨c, zeros, rfl⟩ := List.exists_cons_of_ne_nil nonempty
      obtain rfl := zero c List.mem_cons_self
      have read := readChunkedData_zero maxSize rest within
      simpa [Decoded] using read

/-! ### Chunks -/

theorem stable_readChunkedData (maxSize : Nat) (rs : IStream) : (readChunkedData maxSize rs).Stable :=
  stable_loop _ _

/-- A first size with a leading zero is taken for that of the last chunk. -/
theorem not_decoded_zero {maxSize : Nat} {digits data text rest : Bytes} {pieces : List Bytes}
    (size : SizeDigits digits data.length) (nonempty : data ≠ []) :
    ¬ Decoded maxSize (data :: pieces) (48 :: digits ++ [13, 10] ++ data ++ [13, 10] ++ text) rest := by
  intro decoded
  have within := size.zero.line
  rw [List.cons_append] at within
  have read := readChunkedData_zero maxSize (data ++ [13, 10] ++ text ++ rest) within
  simp only [Decoded, List.append_assoc, List.cons_append, List.nil_append] at decoded read
  have same := decoded.unique (stable_readChunkedData _ _) read
  simp only [Except.ok.injEq, Prod.mk.injEq, List.flatten_cons, List.append_eq_nil_iff] at same
  exact nonempty same.1.1

theorem decodesChunks_iff_nil {maxSize : Nat} {pieces : List Bytes}
    (nonempty : ∀ data ∈ pieces, data ≠ []) : DecodesChunks maxSize pieces ↔ pieces = [] := by
  constructor
  · intro decodes
    cases pieces with
    | nil => rfl
    | cons data pieces =>
        exfalso
        have some := nonempty data List.mem_cons_self
        obtain ⟨digits, size⟩ := exists_sizeDigits data.length
        obtain ⟨text, further⟩ :=
          exists_chunked pieces (fun d member => nonempty d (List.mem_cons_of_mem _ member))
        exact not_decoded_zero size some
          (decodes _ [] (.chunk size.zero some further))
  · rintro rfl
    exact decodesChunks_nil maxSize

/-! ### Counting line feeds -/

/-- A stream that is still good after a read has given all the bytes. -/
theorem read_good {s after : IStream} {count : Nat} {data : Bytes}
    (result : s.read count = (data, after)) (good : after.good = true) :
    s = fresh (data ++ after.unread) := by
  rcases state : s.good with - | -
  · rw [read_of_not_good state] at result
    cases result
    rw [not_good_of_failbit] at good
    cases good
  · rw [eq_fresh_of_good state] at result ⊢
    by_cases short : s.unread.length < count
    · have bad : after = _ := result ▸ read_short short
      rw [bad] at good
      cases good
    · have whole : (fresh (s.unread.take count ++ s.unread.drop count)).read (s.unread.take count).length =
          (s.unread.take count, fresh (s.unread.drop count)) := read_whole
      rw [List.take_append_drop, List.length_take_of_le (Nat.le_of_not_lt short), result] at whole
      cases whole
      simp [fresh]

/-- What a further iteration takes off a stream that stays good. -/
theorem chunk_again {maxSize : Nat} {s next : ChunkState} (again : chunk maxSize s = .ok (.again next))
    (good : next.rs.good = true) :
    ∃ piece first second, 10 ∉ first ∧ 10 ∉ second ∧ 10 ∉ next.chunkHeader ∧
      next.data = s.data ++ piece ∧
      s.rs = fresh (piece ++ (first ++ 10 :: (second ++ 10 ::
        (next.chunkHeader ++ 10 :: next.rs.unread)))) := by
  by_cases last : charAt s.chunkHeader 0 = 48
  · rw [chunk, if_pos last] at again
    cases again
  rcases value : stoll 16 s.chunkHeader with e | number
  · simp only [chunk, if_neg last, value, Bind.bind, Except.bind] at again
    cases again
  by_cases fits : s.data.length + toSizeT number ≤ maxSize
  · rw [chunk_fits last value fits] at again
    rcases read : s.rs.read (toSizeT number) with ⟨piece, rs⟩
    rcases one : rs.getline s.chunkHeader 10 with ⟨first, rs1⟩
    rcases two : rs1.getline first 10 with ⟨second, rs2⟩
    rcases three : rs2.getline second 10 with ⟨third, rs3⟩
    simp only [read, afterChunk, one, two, three] at again
    cases again
    obtain ⟨within3, text3⟩ := getline_good three good
    obtain ⟨within2, text2⟩ := getline_good two (by rw [text3]; rfl)
    obtain ⟨within1, text1⟩ := getline_good one (by rw [text2]; rfl)
    have text := read_good read (by rw [text1]; rfl)
    refine ⟨piece, first, second, within1, within2, within3, rfl, ?_⟩
    rw [text, text1, text2, text3]
    rfl
  · rw [chunk_too_large last value fits] at again
    cases again

/-- The loop takes three lines off the stream for each piece that it adds to the data. -/
theorem count_chunks {maxSize fuel : Nat} {s : ChunkState} {data : Bytes} {rs : IStream}
    (result : iterate (chunk maxSize) fuel s = some (.ok (data, rs))) (good : rs.good = true) :
    s.rs.good = true ∧ ∃ m, s.data.count 10 + s.rs.unread.count 10 =
      data.count 10 + rs.unread.count 10 + 3 * m := by
  induction fuel generalizing s with
  | zero => cases result
  | succ fuel ih =>
      simp only [iterate] at result
      rcases step : chunk maxSize s with e | next | ⟨out, left⟩
      · rw [step] at result
        cases result
      · rw [step] at result
        obtain ⟨still, m, count⟩ := ih result
        obtain ⟨piece, first, second, within1, within2, within3, longer, text⟩ :=
          chunk_again step still
        refine ⟨by rw [text, good_fresh], m + 1, ?_⟩
        rw [longer] at count
        simp only [text, fresh, List.count_append, List.count_cons_self,
          List.count_eq_zero_of_not_mem within1, List.count_eq_zero_of_not_mem within2,
          List.count_eq_zero_of_not_mem within3] at count ⊢
        omega
      · rw [step] at result
        cases result
        have done : s.data = data ∧ s.rs = rs := by
          by_cases last : charAt s.chunkHeader 0 = 48
          · rw [chunk, if_pos last] at step
            cases step
            exact ⟨rfl, rfl⟩
          · exfalso
            rcases value : stoll 16 s.chunkHeader with e | number
            · simp only [chunk, if_neg last, value, Bind.bind, Except.bind] at step
              cases step
            by_cases fits : s.data.length + toSizeT number ≤ maxSize
            · rw [chunk_fits last value fits] at step
              cases step
            · rw [chunk_too_large last value fits] at step
              cases step
        rw [done.1, done.2]
        exact ⟨good, 0, by omega⟩

/-- A text has two line feeds for each chunk, one for the last line, and those of the data. -/
theorem Chunked.count {pieces : List Bytes} {text : Bytes} (encoded : Chunked pieces text) :
    text.count 10 = pieces.flatten.count 10 + 2 * pieces.length + 1 := by
  induction encoded with
  | @last zeros nonempty zero =>
      have none : zeros.count 10 = 0 :=
        List.count_eq_zero_of_not_mem (fun member => absurd (zero 10 member) (by decide))
      simp [List.count_append, none]
  | @chunk digits data pieces text size nonempty further ih =>
      have none : digits.count 10 = 0 :=
        List.count_eq_zero_of_not_mem (fun member => absurd (size.digit 10 member) (by decide))
      have two : List.count (10 : UInt8) [13, 10] = 1 := by decide
      simp only [List.count_append, none, two, ih, List.flatten_cons, List.length_cons]
      omega

theorem three_dvd_of_decoded {maxSize : Nat} {pieces : List Bytes} {text rest : Bytes}
    (encoded : Chunked pieces text) (decoded : Decoded maxSize pieces text rest) :
    3 ∣ pieces.length := by
  obtain ⟨fuel, result⟩ := decoded
  rcases first : (fresh (text ++ rest)).getline [] 10 with ⟨header, rs⟩
  simp only [readChunkedData, first, loop] at result
  obtain ⟨good, m, count⟩ := count_chunks result rfl
  obtain ⟨within, whole⟩ := getline_good first good
  have lines := congrArg (fun s : IStream => s.unread.count 10) whole
  have size := encoded.count
  simp only [fresh, List.count_append, List.count_cons_self, List.count_nil,
    List.count_eq_zero_of_not_mem within] at lines count
  omega

/-- Only a body without any chunk is decoded from each of its texts, and no text for a number of chunks
that three does not divide is decoded. -/
theorem readChunkedData_decodes_iff (maxSize : Nat) (pieces : List Bytes)
    (nonempty : ∀ data ∈ pieces, data ≠ []) :
    (DecodesChunks maxSize pieces ↔ pieces = []) ∧
      ∀ text rest, Chunked pieces text → ¬ 3 ∣ pieces.length → ¬ Decoded maxSize pieces text rest :=
  ⟨decodesChunks_iff_nil nonempty,
    fun _ _ encoded other decoded => other (three_dvd_of_decoded encoded decoded)⟩

theorem readChunkedData_decodes_two :
    ¬ DecodesChunks (2 ^ 62 - 1) [ascii "hello", ascii "world"] := by
  intro decodes
  have empty := (readChunkedData_decodes_iff (2 ^ 62 - 1) [ascii "hello", ascii "world"]
    (by decide)).1.mp decodes
  cases empty

theorem sizeDigits_five : SizeDigits (ascii "5") (ascii "hello").length :=
  ⟨by decide, forall_mem_of_all (by decide), by decide⟩

/-- A body of one chunk is refused: the empty line after the last chunk is taken for a size. -/
theorem readChunkedData_one_chunk :
    Chunked [ascii "hello"] (ascii "5\r\nhello\r\n0\r\n") ∧
      ¬ Decoded (2 ^ 62 - 1) [ascii "hello"] (ascii "5\r\nhello\r\n0\r\n") (ascii "\r\n") := by
  constructor
  · have last : Chunked [] (ascii "0" ++ [13, 10]) := .last (by decide) (forall_mem_of_all (by decide))
    exact .chunk sizeDigits_five (by decide) last
  · intro decoded
    have refused : (readChunkedData (2 ^ 62 - 1)
        (fresh (ascii "5\r\nhello\r\n0\r\n" ++ ascii "\r\n"))).Returns
          (.error .invalid_argument) := ⟨2, by decide⟩
    cases decoded.unique (stable_readChunkedData _ _) refused

/-! ## Requests up to their body -/

/-- The body of a request begins empty. -/
theorem body_of_parse {requestLine : Bytes} {m : HTTPRequest}
    (parsed : parseRequestLine requestLine = .ok m) : m.body = [] := by
  simp only [parseRequestLine, Bind.bind, Except.bind] at parsed
  split at parsed
  · cases parsed
  · split at parsed
    · cases parsed
    · split at parsed
      · cases parsed
      · split at parsed
        · cases parsed
        · cases parsed
          rfl

/-- With a request line and header lines that are accepted, what comes after them decides. -/
theorem returns_readRequest {env : Surroundings} {requestLine lines following : Bytes}
    {m : HTTPRequest} {headers : Headers} (within : 10 ∉ requestLine)
    (parsed : parseRequestLine requestLine = .ok m) (accepted : HeaderLines [] [] lines headers)
    {r : Except StdException (HTTPRequest × IStream)} :
    (readRequest env (fresh (requestLine ++ 10 :: (lines ++ following)))).Returns r ↔
      (readAnnounced env { m with headers := headers } (fresh following)).Returns r := by
  have line : readRequestLine (fresh (requestLine ++ 10 :: (lines ++ following))) =
      .ok (m, fresh (lines ++ following)) := by
    rw [readRequestLine_line within, parsed]
    rfl
  refine (returns_bind_of_ok (stable_lift _) (fun _ => stable_readMessage env _ _)
    (returns_lift.mpr line)).trans ?_
  exact returns_bind_of_ok (stable_loop _ _) (fun _ => stable_readAnnounced env _ _)
    (returns_of_headerLines accepted [])

theorem returns_readAnnounced {env : Surroundings} {m : HTTPRequest} {rs : IStream} {plan : BodyPlan}
    (planned : bodyPlan m = .ok plan) {r : Except StdException (HTTPRequest × IStream)} :
    (readAnnounced env m rs).Returns r ↔ (readBody env m rs plan).Returns r :=
  returns_bind_of_ok (stable_lift _) (stable_readBody env m rs) (returns_lift.mpr planned)

/-! ## Counted bodies -/

/-- A number in decimal digits, with blanks around it. -/
structure DecimalValue (value : Bytes) (n : Nat) : Prop where
  written : ∃ before digits after, value = before ++ (digits ++ after) ∧ digits ≠ [] ∧
    (∀ c ∈ before, c = 32) ∧ (∀ c ∈ digits, isdigit c = true) ∧ (∀ c ∈ after, c = 32) ∧
    digitsToNat 10 digits = n

/-- The headers announce a body of `n` bytes, in one piece and without an interim response. -/
structure AnnouncedLength (headers : Headers) (n : Nat) : Prop where
  length : ∃ h, headers.get? "Content-Length" = some h ∧ DecimalValue h.value n
  whole : headers.get? "Transfer-Encoding" = none
  once : headers.get? "Expect" = none

theorem stoll_decimalValue {value : Bytes} {n : Nat} (number : DecimalValue value n) :
    stoll 10 value = if n < 2 ^ 63 then .ok n else .error .out_of_range := by
  obtain ⟨before, digits, after, rfl, nonempty, blanks, digit, blanks', rfl⟩ := number.written
  have spaces : ∀ c ∈ before, isspace c = true := by
    intro c member
    rw [blanks c member]
    rfl
  have small : ∀ c ∈ digits, decide (digitValue c < 10) = true :=
    fun c member => decide_eq_true (digitValue_of_isdigit (digit c member))
  have stop : after.takeWhile (fun c => decide (digitValue c < 10)) = [] := by
    cases after with
    | nil => rfl
    | cons c after =>
        rw [blanks' c List.mem_cons_self]
        rfl
  have run : digitRun 10 (digits ++ after) = digits := by
    rw [digitRun, List.takeWhile_append_of_pos small, stop, List.append_nil]
  obtain ⟨c, rest, rfl⟩ := List.exists_cons_of_ne_nil nonempty
  have first := digit c List.mem_cons_self
  have start : (c :: rest ++ after).dropWhile isspace = c :: rest ++ after := by
    rw [List.cons_append, List.dropWhile_cons_of_neg]
    rw [not_isspace_of_isdigit first]
    exact Bool.false_ne_true
  simp only [stoll, List.dropWhile_append_of_pos spaces, start]
  rw [List.cons_append, splitSign_of_isdigit first, ← List.cons_append]
  simp only [run, Nat.reduceEqDiff, if_false, if_neg nonempty, Bool.false_eq_true]

section Counted

variable {env : Surroundings} {m : HTTPRequest} {n : Nat} {following : Bytes}

/-- The plan for a body whose length is announced. -/
theorem bodyPlan_announced (admits : requestHasBody m.method ≠ .no)
    (announced : AnnouncedLength m.headers n) (fits : n < 2 ^ 63) :
    bodyPlan m = .ok (.contentLength n false) := by
  obtain ⟨h, present, number⟩ := announced.length
  have value : h.valueAsNumber = .ok n := by
    rw [HTTPHeader.valueAsNumber, stoll_decimalValue number, if_pos fits]
    simp only [Except.map, toSizeT]
    congr 1
    omega
  simp only [bodyPlan, if_neg admits, present, value, announced.whole, expectContinue, announced.once]
  rfl

theorem bodyPlan_too_large (admits : requestHasBody m.method ≠ .no)
    (announced : AnnouncedLength m.headers n) (large : ¬ n < 2 ^ 63) :
    bodyPlan m = .error .out_of_range := by
  obtain ⟨h, present, number⟩ := announced.length
  have value : h.valueAsNumber = .error .out_of_range := by
    rw [HTTPHeader.valueAsNumber, stoll_decimalValue number, if_neg large]
    rfl
  simp only [bodyPlan, if_neg admits, present, value]
  rfl

/-- The bytes of the body are taken off the stream, and the message stays as it is. -/
theorem returns_counted (fits : n ≤ env.maxSize) (enough : n ≤ following.length) :
    (readBody env m (fresh following) (.contentLength n false)).Returns
      (.ok (m, fresh (following.drop n))) := by
  have whole : (fresh (following.take n ++ following.drop n)).read (following.take n).length =
      (following.take n, fresh (following.drop n)) := read_whole
  rw [List.take_append_drop, List.length_take_of_le enough] at whole
  refine (returns_bind_of_ok (stable_lift _) (fun _ => stable_pure _)
    (a := (following.take n, fresh (following.drop n))) (returns_lift.mpr ?_)).mpr ⟨0, rfl⟩
  have same : sendContinue env false (fresh following) = fresh following := rfl
  rw [same, readData, if_neg (Nat.not_lt.mpr fits), whole]

theorem returns_counted_too_large (large : ¬ n ≤ env.maxSize) :
    (readBody env m (fresh following) (.contentLength n false)).Returns (.error .length_error) := by
  refine returns_bind_of_error (stable_lift _) (fun _ => stable_pure _) (returns_lift.mpr ?_)
  rw [readData, if_pos (Nat.not_le.mp large)]

/-- What becomes of a message whose body is counted: it is returned as it was, or there is an error. -/
theorem returns_announced (admits : requestHasBody m.method ≠ .no)
    (announced : AnnouncedLength m.headers n) (enough : n ≤ following.length) :
    (readAnnounced env m (fresh following)).Returns
      (if n < 2 ^ 63 then
        if n ≤ env.maxSize then .ok (m, fresh (following.drop n)) else .error .length_error
      else .error .out_of_range) := by
  split
  · rename_i fits
    rw [returns_readAnnounced (bodyPlan_announced admits announced fits)]
    split
    · rename_i small
      exact returns_counted small enough
    · rename_i large
      exact returns_counted_too_large large
  · rename_i large
    exact returns_bind_of_error (stable_lift _) (stable_readBody env m _)
      (returns_lift.mpr (bodyPlan_too_large admits announced large))

end Counted

/-- A body whose length is announced is only kept if it is empty. -/
theorem readRequest_contentLength_iff (env : Surroundings) (requestLine lines following : Bytes)
    (m : HTTPRequest) (headers : Headers) (n : Nat) (within : 10 ∉ requestLine)
    (parsed : parseRequestLine requestLine = .ok m) (accepted : HeaderLines [] [] lines headers)
    (admits : requestHasBody m.method ≠ .no) (announced : AnnouncedLength headers n)
    (enough : n ≤ following.length) :
    (readRequest env (fresh (requestLine ++ 10 :: (lines ++ following)))).Returns
        (.ok ({ m with headers := headers, body := following.take n }, fresh (following.drop n))) ↔
      n = 0 := by
  have empty := body_of_parse parsed
  rw [returns_readRequest within parsed accepted]
  have result : (readAnnounced env { m with headers := headers } (fresh following)).Returns _ :=
    returns_announced admits announced enough
  constructor
  · intro returned
    have same := returned.unique (stable_readAnnounced env _ _) result
    split at same
    · split at same
      · simp only [Except.ok.injEq, Prod.mk.injEq, HTTPRequest.mk.injEq, empty,
          List.take_eq_nil_iff] at same
        rcases same.1.2.2.2.2 with zero | none
        · exact zero
        · rw [none] at enough
          exact Nat.le_zero.mp enough
      · cases same
    · cases same
  · rintro rfl
    simp only [Nat.pow_pos, Nat.ofNat_pos, if_true, Nat.zero_le, List.drop_zero] at result
    rw [List.take_zero, List.drop_zero, ← empty]
    exact result

/-- A request that announces five bytes. -/
def postLine : Bytes := ascii "POST / HTTP/1.1\r"

def postRequest : HTTPRequest := { protocol := .http_1_1, method := .post, url := { path := ascii "/" } }

def lengthHeaders : Headers :=
  [(ascii "Content-Length", ⟨ascii "Content-Length", ascii " 5", .integer, []⟩)]

theorem headerLines_length :
    HeaderLines [] [] (ascii "Content-Length: 5\r\n\r\n") lengthHeaders :=
  .line (ascii "Content-Length: 5") (by decide) (by decide) (by decide) (by decide) (by decide)
    (.stop _)

theorem announcedLength_five : AnnouncedLength lengthHeaders 5 where
  length := ⟨_, rfl, ⟨ascii " ", ascii "5", [], rfl, by decide, forall_mem_of_all (by decide),
    forall_mem_of_all (by decide), nofun, rfl⟩⟩
  whole := by decide
  once := by decide

theorem readRequest_contentLength_five :
    ¬ (readRequest ⟨2 ^ 62 - 1, true⟩ (fresh (postLine ++ 10 ::
        (ascii "Content-Length: 5\r\n\r\n" ++ ascii "helloGET")))).Returns
      (.ok ({ postRequest with headers := lengthHeaders, body := ascii "hello" },
        fresh (ascii "GET"))) := by
  intro returned
  have zero := (readRequest_contentLength_iff ⟨2 ^ 62 - 1, true⟩ postLine _ (ascii "helloGET")
    postRequest lengthHeaders 5 (by decide) (by decide) headerLines_length (by decide)
    announcedLength_five (by decide)).mp returned
  cases zero

/-- Five bytes are announced and sent, and the request has an empty body. -/
theorem readRequest_body_lost :
    (readRequest ⟨2 ^ 62 - 1, true⟩ (fresh (ascii
        "POST / HTTP/1.1\r\nContent-Length: 5\r\n\r\nhello"))).Returns
      (.ok ({ postRequest with headers := lengthHeaders, body := [] }, fresh [])) ∧
    ¬ (readRequest ⟨2 ^ 62 - 1, true⟩ (fresh (ascii
        "POST / HTTP/1.1\r\nContent-Length: 5\r\n\r\nhello"))).Returns
      (.ok ({ postRequest with headers := lengthHeaders, body := ascii "hello" }, fresh [])) := by
  have returned : (readAnnounced ⟨2 ^ 62 - 1, true⟩ { postRequest with headers := lengthHeaders }
      (fresh (ascii "hello"))).Returns _ :=
    returns_announced (by decide) announcedLength_five (by decide)
  have within : 10 ∉ postLine := by decide
  have parsed : parseRequestLine postLine = .ok postRequest := by decide
  constructor
  · exact (returns_readRequest within parsed headerLines_length).mpr returned
  · intro kept
    have same := ((returns_readRequest within parsed headerLines_length).mp kept).unique
      (stable_readAnnounced _ _ _) returned
    revert same
    decide

/-! ## Trailers -/

/-- Fields that may come after the last chunk: each is a header, and no name is used twice. -/
structure TrailerFields (headers : Headers) (fields : List Bytes) : Prop where
  within : ∀ field ∈ fields, 10 ∉ field ∧ 13 ∉ field
  valid : ∀ field ∈ fields, (HTTPHeader.parse field).type ≠ .invalid
  distinct : (fields.map (fun field => (HTTPHeader.parse field).name)).Nodup
  unused : ∀ field ∈ fields, known headers field = false

/-- Each field on its line, and the empty line. -/
def trailerText (fields : List Bytes) : Bytes :=
  fields.flatMap (fun field => field ++ [13, 10]) ++ [13, 10]

/-- The headers with the fields. -/
def withTrailers (headers : Headers) (fields : List Bytes) : Headers :=
  (fields.map (fun field => ((HTTPHeader.parse field).name, HTTPHeader.parse field))).reverse ++ headers

theorem trailerText_cons (field : Bytes) (fields : List Bytes) (rest : Bytes) :
    trailerText (field :: fields) ++ rest = (field ++ [13]) ++ 10 :: (trailerText fields ++ rest) := by
  simp [trailerText]

theorem parse_nil : (HTTPHeader.parse []).type = .invalid := by decide

/-- A field does not begin like the empty line. -/
theorem TrailerFields.first {headers : Headers} {field : Bytes} {fields : List Bytes}
    (trailers : TrailerFields headers (field :: fields)) : charAt (field ++ [13]) 0 ≠ 13 := by
  have valid := trailers.valid field List.mem_cons_self
  have within := (trailers.within field List.mem_cons_self).2
  cases field with
  | nil => exact absurd parse_nil valid
  | cons c field =>
      intro same
      exact within (List.mem_cons.mpr (Or.inl same.symm))

/-- Without an empty line there is no way out of the loop but an exception. -/
theorem returns_trailers_error {remainder : Bytes} (first : charAt remainder 0 ≠ 13)
    (s : Headers × Nat) : ∃ e, (loop (trailer remainder) s).Returns (.error e) := by
  refine error_of_invariant (P := fun _ => True) ?_ (fun _ _ => trivial) trivial
    (ends_trailerLoop remainder s)
  intro s a _ done
  rw [trailer, if_neg first] at done
  rcases added : addParsed s.1 remainder with e | headers
  · rw [added] at done
    cases done
  · rw [added] at done
    cases done

section Trailers

variable {headers : Headers} {fields : List Bytes} {rest : Bytes} {n : Nat}

/-- No field: the number that was announced decides. -/
theorem returns_trailers_nil (headers : Headers) (rest : Bytes) (n : Nat) :
    (readTrailers n headers (fresh (trailerText [] ++ rest))).Returns
      (if n = 0 then .ok (headers, fresh rest)
      else invalidRequest "Trailing headers does not match Trailer header content") := by
  have within : (10 : UInt8) ∉ [13] := by decide
  have line : (fresh (trailerText [] ++ rest)).getline [] 10 = ([13], fresh rest) :=
    getline_line within
  have loops : (loop (trailer [13]) (headers, 0)).Returns (.ok (headers, 0)) := ⟨1, rfl⟩
  simp only [readTrailers, line]
  refine (returns_bind_of_ok (stable_loop _ _) ?_ loops).mpr ?_
  · rintro ⟨added, count⟩
    dsimp only
    split <;> exact stable_lift _
  · dsimp only
    by_cases none : n = 0
    · rw [if_pos none, if_neg (fun other => other none.symm)]
      exact ⟨0, rfl⟩
    · rw [if_neg none, if_pos (fun same => none same.symm)]
      exact ⟨0, rfl⟩

/-- Any field: its line is parsed until its name is there. -/
theorem returns_trailers_cons {field : Bytes}
    (trailers : TrailerFields headers (field :: fields)) (n : Nat) (rest : Bytes) :
    ∃ e, (readTrailers n headers (fresh (trailerText (field :: fields) ++ rest))).Returns
      (.error e) := by
  have within : 10 ∉ field ++ [13] := by
    intro member
    rcases List.mem_append.mp member with inside | last
    · exact (trailers.within field List.mem_cons_self).1 inside
    · revert last
      decide
  obtain ⟨e, failed⟩ := returns_trailers_error trailers.first (headers, 0)
  refine ⟨e, ?_⟩
  rw [trailerText_cons]
  simp only [readTrailers, getline_line within]
  refine returns_bind_of_error (stable_loop _ _) ?_ failed
  rintro ⟨added, count⟩
  dsimp only
  split <;> exact stable_lift _

variable {env : Surroundings} {m : HTTPRequest} {body following : Bytes} {expect : Bool}

/-- After the chunks the trailers decide. -/
theorem returns_chunked {rs : IStream} (sent : expect = true → env.continueSent = true)
    (chunks : (readChunkedData env.maxSize (fresh following)).Returns (.ok (body, rs)))
    {r : Except StdException (HTTPRequest × IStream)} :
    (readBody env m (fresh following) (.chunked n expect)).Returns r ↔
      (readRemainder m n body rs).Returns r := by
  rw [← sendContinue_of_sent sent (fresh following)] at chunks
  exact returns_bind_of_ok (stable_loop _ _) (fun _ => stable_readRemainder m n _ _) chunks

/-- A request whose chunks are read is decided by what comes after them. -/
theorem returns_readRequest_chunked {requestLine lines : Bytes} {rs : IStream}
    (within : 10 ∉ requestLine) (parsed : parseRequestLine requestLine = .ok m)
    (accepted : HeaderLines [] [] lines headers)
    (planned : bodyPlan { m with headers := headers } = .ok (.chunked n expect))
    (sent : expect = true → env.continueSent = true)
    (chunks : (readChunkedData env.maxSize (fresh following)).Returns (.ok (body, rs)))
    {r : Except StdException (HTTPRequest × IStream)} :
    (readRequest env (fresh (requestLine ++ 10 :: (lines ++ following)))).Returns r ↔
      (readRemainder { m with headers := headers } n body rs).Returns r := by
  rw [returns_readRequest within parsed accepted, returns_readAnnounced planned]
  exact returns_chunked sent chunks

theorem returns_remainder_cons {field : Bytes}
    (trailers : TrailerFields m.headers (field :: fields)) (n : Nat) (body rest : Bytes) :
    ∃ e, (readRemainder m n body (fresh (trailerText (field :: fields) ++ rest))).Returns
      (.error e) := by
  obtain ⟨e, failed⟩ := returns_trailers_cons trailers n rest
  exact ⟨e, returns_bind_of_error (stable_readTrailers _ _ _) (fun _ => stable_pure _) failed⟩

/-- What the trailers should lead to: with as many fields as were announced a request that has them,
and an exception otherwise. -/
def TrailersRead (env : Surroundings) (input : Bytes) (m : HTTPRequest) (n : Nat)
    (fields : List Bytes) (rest : Bytes) : Prop :=
  if fields.length = n then
    (readRequest env (fresh input)).Returns
      (.ok ({ m with headers := withTrailers m.headers fields }, fresh rest))
  else ∃ e, (readRequest env (fresh input)).Returns (.error e)

end Trailers

/-- Trailers are read as they should unless there is one and as many come as were announced. -/
theorem readRequest_trailers_iff (env : Surroundings) (requestLine lines following : Bytes)
    (m : HTTPRequest) (headers : Headers) (n : Nat) (expect : Bool) (body : Bytes)
    (fields : List Bytes) (rest : Bytes) (within : 10 ∉ requestLine)
    (parsed : parseRequestLine requestLine = .ok m) (accepted : HeaderLines [] [] lines headers)
    (planned : bodyPlan { m with headers := headers } = .ok (.chunked n expect))
    (sent : expect = true → env.continueSent = true)
    (chunks : (readChunkedData env.maxSize (fresh following)).Returns
      (.ok (body, fresh (trailerText fields ++ rest))))
    (trailers : TrailerFields headers fields) :
    TrailersRead env (requestLine ++ 10 :: (lines ++ following))
        { m with headers := headers, body := body } n fields rest ↔
      (fields.length = n → n = 0) := by
  simp only [TrailersRead, returns_readRequest_chunked within parsed accepted planned sent chunks]
  cases fields with
  | nil =>
      have read := returns_trailers_nil headers rest n
      by_cases none : n = 0
      · rw [if_pos none] at read
        rw [if_pos (by rw [none]; rfl)]
        refine iff_of_true ?_ (fun _ => none)
        exact (returns_bind_of_ok (stable_readTrailers _ _ _) (fun _ => stable_pure _) read).mpr
          ⟨0, rfl⟩
      · rw [if_neg none] at read
        rw [if_neg (fun same => none same.symm)]
        refine iff_of_true ?_ (fun same => same.symm)
        exact ⟨_, returns_bind_of_error (stable_readTrailers _ _ _) (fun _ => stable_pure _) read⟩
  | cons field fields =>
      obtain ⟨e, thrown⟩ :=
        returns_remainder_cons (m := { m with headers := headers }) trailers n body rest
      split
      · rename_i same
        refine iff_of_false ?_ ?_
        · intro returned
          cases returned.unique (stable_readRemainder _ _ _ _) thrown
        · intro zero
          rw [zero same] at same
          cases same
      · rename_i other
        exact iff_of_true ⟨e, thrown⟩ (fun same => absurd same other)

def trailerHeaders : Headers :=
  [(ascii "Trailer", ⟨ascii "Trailer", ascii " X-Sum", .containsOtherHeaders, []⟩),
    (ascii "Transfer-Encoding", ⟨ascii "Transfer-Encoding", ascii " chunked", .string, []⟩)]

theorem headerLines_trailer :
    HeaderLines [] [] (ascii "Transfer-Encoding: chunked\r\nTrailer: X-Sum\r\n\r\n")
      trailerHeaders :=
  have second : HeaderLines [] (trailerHeaders.drop 1) (ascii "Trailer: X-Sum\r\n\r\n")
      trailerHeaders :=
    .line (ascii "Trailer: X-Sum") (by decide) (by decide) (by decide) (by decide) (by decide)
      (.stop _)
  .line (ascii "Transfer-Encoding: chunked") (by decide) (by decide) (by decide) (by decide)
    (by decide) second

theorem trailerFields_sum : TrailerFields trailerHeaders [ascii "X-Sum: 1"] :=
  ⟨by decide, by decide, by decide, by decide⟩

theorem bodyPlan_trailer :
    bodyPlan { postRequest with headers := trailerHeaders } = .ok (.chunked 1 false) := by
  decide

theorem readChunkedData_trailer (fields : List Bytes) :
    (readChunkedData (2 ^ 62 - 1) (fresh (ascii "0\r\n" ++ trailerText fields))).Returns
      (.ok ([], fresh (trailerText fields ++ []))) := by
  have within : 10 ∉ 48 :: ascii "\r" := by decide
  rw [List.append_nil]
  exact readChunkedData_zero _ _ within

theorem trailerFields_two : TrailerFields trailerHeaders [ascii "X-Sum: 1", ascii "X-Count: 2"] :=
  ⟨by decide, by decide, by decide, by decide⟩

/-- Two trailers come, where one is announced. -/
theorem readRequest_trailers_two :
    ∃ e, (readRequest ⟨2 ^ 62 - 1, true⟩ (fresh (postLine ++ 10 ::
      (ascii "Transfer-Encoding: chunked\r\nTrailer: X-Sum\r\n\r\n" ++
        (ascii "0\r\n" ++ trailerText [ascii "X-Sum: 1", ascii "X-Count: 2"]))))).Returns (.error e) := by
  have read := (readRequest_trailers_iff ⟨2 ^ 62 - 1, true⟩ postLine _
    (ascii "0\r\n" ++ trailerText [ascii "X-Sum: 1", ascii "X-Count: 2"]) postRequest trailerHeaders 1 false [] _ []
    (by decide) (by decide) headerLines_trailer bodyPlan_trailer nofun (readChunkedData_trailer _)
    trailerFields_two).mpr (fun same => absurd same (by decide))
  rwa [TrailersRead, if_neg (by decide)] at read

/-- The announced trailer comes, and the request is refused. -/
theorem readRequest_trailer_refused :
    ¬ TrailersRead ⟨2 ^ 62 - 1, true⟩ (postLine ++ 10 ::
        (ascii "Transfer-Encoding: chunked\r\nTrailer: X-Sum\r\n\r\n" ++
          (ascii "0\r\n" ++ trailerText [ascii "X-Sum: 1"])))
      { postRequest with headers := trailerHeaders } 1 [ascii "X-Sum: 1"] [] := by
  intro read
  have within : 10 ∉ postLine := by decide
  have parsed : parseRequestLine postLine = .ok postRequest := by decide
  rw [TrailersRead, if_pos (by rfl)] at read
  have remainder := (returns_readRequest_chunked within parsed headerLines_trailer bodyPlan_trailer
    nofun (readChunkedData_trailer _)).mp read
  obtain ⟨e, thrown⟩ := returns_remainder_cons (m := { postRequest with headers := trailerHeaders })
    trailerFields_sum 1 [] []
  cases remainder.unique (stable_readRemainder _ _ _ _) thrown

end Pcm.Http
