import Pcm.HttpRequest

/-!
# Reading a request ends

The header loop and the trailer loop end on every stream: a line that is read again only gets shorter,
and a header that is parsed again is already there. The chunk loop does not: a chunk header of value 0
that does not begin with the character `0` and is cut off by the end of the file is read again and again.
-/

namespace Pcm.Http

open StdString IStream Bounded

/-! ## The header loop -/

/-- The name in this text is among the headers. -/
def known (headers : Headers) (text : Bytes) : Bool :=
  headers.any (·.1 = (HTTPHeader.parse text).name)

/-- A header that is added was not there before, and is there afterwards. -/
theorem known_of_addParsed {headers next : Headers} {text : Bytes}
    (added : addParsed headers text = .ok next) :
    known headers text = false ∧ known next text = true := by
  simp only [addParsed] at added
  split at added
  · cases added
  · simp only [Headers.add] at added
    split at added
    · cases added
    · rename_i absent
      cases added
      constructor
      · simpa only [known, Bool.not_eq_true] using absent
      · simp [known]

/-- What a further iteration of the header loop has done. -/
theorem headerLine_again {s next : HeaderState} (again : headerLine s = .ok (.again next)) :
    ∃ line rs, s.rs.getline s.line 10 = (line, rs) ∧ next.line = compressLWSAndRemoveCR line ∧
      s.concatLine ++ next.line ≠ [] ∧
      ((∃ c rest, rs = fresh (c :: rest) ∧ (c = 32 ∨ c = 9) ∧ next.rs = rs ∧
          next.concatLine = s.concatLine ++ next.line ∧ next.headers = s.headers) ∨
        (next.rs = rs.peek.2.peek.2 ∧ rs.peek.1 ≠ some 32 ∧ rs.peek.2.peek.1 ≠ some 9 ∧
          next.concatLine = [] ∧
          addParsed s.headers (s.concatLine ++ next.line) = .ok next.headers)) := by
  rcases read : s.rs.getline s.line 10 with ⟨line, rs⟩
  refine ⟨line, rs, rfl, ?_⟩
  simp only [headerLine, read] at again
  split at again
  · cases again
  · rename_i nonempty
    split at again
    · rename_i blank
      cases again
      obtain ⟨rest, same⟩ := peek_some blank
      refine ⟨rfl, nonempty, Or.inl ⟨32, rest, same, Or.inl rfl, ?_, rfl, rfl⟩⟩
      rw [same, peek_cons]
    · rename_i noBlank
      split at again
      · rename_i tab
        cases again
        obtain ⟨_, after⟩ := peek_some tab
        obtain ⟨c, rest', same⟩ := good_of_peek (by rw [after, good_fresh])
        rw [same, peek_cons] at tab
        cases tab
        refine ⟨rfl, nonempty, Or.inl ⟨9, rest', same, Or.inr rfl, ?_, rfl, rfl⟩⟩
        rw [same, peek_cons, peek_cons]
      · rename_i noTab
        rcases added : addParsed s.headers (s.concatLine ++ compressLWSAndRemoveCR line) with
          e | headers
        · rw [added] at again
          cases again
        · rw [added] at again
          cases again
          exact ⟨rfl, nonempty, Or.inr ⟨rfl, noBlank, noTab, rfl, added⟩⟩

/-- While the stream is good every iteration takes a line off it. Afterwards the same line is compressed
again, and a header that is parsed twice is refused. -/
def headerSize (s : HeaderState) : Nat :=
  if s.rs.good then 2 * s.rs.unread.length + 2
  else 2 * s.line.length + if known s.headers s.line then 0 else 1

theorem headerSize_of_good {s : HeaderState} (good : s.rs.good = true) :
    headerSize s = 2 * s.rs.unread.length + 2 := by
  rw [headerSize, if_pos good]

theorem headerSize_le {s : HeaderState} (bad : s.rs.good = false) :
    headerSize s ≤ 2 * s.line.length + 1 := by
  rw [headerSize, if_neg (by rw [bad]; exact Bool.false_ne_true)]
  split <;> omega

theorem length_compress_le (line : Bytes) :
    (compressLWSAndRemoveCR line).length ≤ line.length := by
  rcases compress_shorter line with same | shorter
  · rw [same]
  · omega

/-- A stream that is not good is not folded over. -/
def Unfolded (s : HeaderState) : Prop := s.rs.good = false → s.concatLine = []

theorem unfolded_again {s next : HeaderState} (again : headerLine s = .ok (.again next)) :
    Unfolded next := by
  obtain ⟨line, rs, -, -, -, folded | parsed⟩ := headerLine_again again
  · obtain ⟨c, rest, same, -, unchanged, -, -⟩ := folded
    intro bad
    rw [unchanged, same, good_fresh] at bad
    cases bad
  · intro _
    exact parsed.2.2.2.1

/-- The size goes down where the stream is not good. -/
theorem headerSize_lt_of_not_good {s next : HeaderState} (unfolded : Unfolded s)
    (bad : s.rs.good = false) (again : headerLine s = .ok (.again next)) :
    headerSize next < headerSize s := by
  obtain ⟨line, rs, read, compressed, -, later⟩ := headerLine_again again
  rw [getline_of_not_good bad] at read
  cases read
  have bad' := not_good_of_failbit s.rs
  rcases later with ⟨c, rest, same, -⟩ | ⟨rest, -, -, -, added⟩
  · rw [same, good_fresh] at bad'
    cases bad'
  · rw [unfolded bad, List.nil_append] at added
    obtain ⟨absent, present⟩ := known_of_addParsed added
    have nextBad : next.rs.good = false := by
      rw [rest]
      exact not_good_peek (not_good_peek bad')
    simp only [headerSize, bad, nextBad, present, Bool.false_eq_true, if_false, if_true]
    rw [compressed] at absent ⊢
    rcases compress_shorter s.line with same | shorter
    · rw [same] at absent ⊢
      rw [absent]
      exact Nat.lt_succ_self _
    · omega

/-- And where it is good. -/
theorem headerSize_lt_of_good {s next : HeaderState} (good : s.rs.good = true)
    (again : headerLine s = .ok (.again next)) : headerSize next < headerSize s := by
  obtain ⟨line, rs, read, compressed, -, later⟩ := headerLine_again again
  rw [headerSize_of_good good]
  have short := length_compress_le line
  rw [← compressed] at short
  rw [eq_fresh_of_good good] at read
  rcases line_or_last s.rs.unread 10 with ⟨first, rest, within, text⟩ | within
  · rw [text, getline_line within] at read
    cases read
    rw [text, List.length_append, List.length_cons]
    rcases state : next.rs.good with - | -
    · have := headerSize_le state
      omega
    · have left : next.rs = fresh rest := by
        rcases later with ⟨_, _, -, -, unchanged, -⟩ | ⟨unchanged, -⟩
        · exact unchanged
        · rw [unchanged] at state
          obtain ⟨c, more, same⟩ := good_of_peeks state
          rw [unchanged, same, peek_cons, peek_cons]
      rw [headerSize_of_good state, left]
      simp only [fresh]
      omega
  · rw [getline_last within] at read
    cases read
    have state : next.rs.good = false := by
      rcases later with ⟨_, _, same, -⟩ | ⟨unchanged, -⟩
      · cases same
      · rw [unchanged]
        exact not_good_peek (not_good_peek rfl)
    have := headerSize_le state
    omega

theorem ends_headerLoop {s : HeaderState} (unfolded : Unfolded s) : (loop headerLine s).Ends := by
  refine ends_of_measure headerSize (P := Unfolded) ?_ unfolded
  intro s next holds again
  refine ⟨unfolded_again again, ?_⟩
  rcases state : s.rs.good with - | -
  · exact headerSize_lt_of_not_good holds state again
  · exact headerSize_lt_of_good state again

theorem ends_readHeaders (rs : IStream) : (readHeaders rs).Ends :=
  ends_headerLoop (fun _ => rfl)

/-! ## The trailer loop -/

theorem ends_trailerLoop (remainder : Bytes) (s : Headers × Nat) :
    (loop (trailer remainder) s).Ends := by
  refine ends_of_measure (P := fun _ => True)
    (fun s => if known s.1 remainder then 0 else 1) ?_ trivial
  intro s next _ again
  simp only [trailer] at again
  split at again
  · cases again
  · rcases added : addParsed s.1 remainder with e | headers
    · rw [added] at again
      cases again
    · rw [added] at again
      cases again
      obtain ⟨absent, present⟩ := known_of_addParsed added
      refine ⟨trivial, ?_⟩
      simp only [absent, present]
      decide

/-! ## Header lines -/

/-- The lines up to the empty one that ends them: with this text of a header that is folded and these
headers before, the headers after. -/
inductive HeaderLines : Bytes → Headers → Bytes → Headers → Prop
  | blank {line headers} (within : 10 ∉ line) (empty : compressLWSAndRemoveCR line = []) :
      HeaderLines [] headers (line ++ [10]) headers
  | folded {concatLine headers line c rest after} (within : 10 ∉ line)
      (text : concatLine ++ compressLWSAndRemoveCR line ≠ []) (blank : c = 32 ∨ c = 9)
      (further : HeaderLines (concatLine ++ compressLWSAndRemoveCR line) headers (c :: rest) after) :
      HeaderLines concatLine headers (line ++ 10 :: c :: rest) after
  | header {concatLine headers line c rest added after} (within : 10 ∉ line)
      (text : concatLine ++ compressLWSAndRemoveCR line ≠ []) (first : c ≠ 32 ∧ c ≠ 9)
      (parsed : addParsed headers (concatLine ++ compressLWSAndRemoveCR line) = .ok added)
      (further : HeaderLines [] added (c :: rest) after) :
      HeaderLines concatLine headers (line ++ 10 :: c :: rest) after

theorem HeaderLines.nonempty {concatLine headers lines after}
    (accepted : HeaderLines concatLine headers lines after) : ∃ c rest, lines = c :: rest := by
  cases accepted with
  | @blank line _ _ _ => cases line <;> simp
  | @folded _ _ line _ _ _ _ _ _ _ => cases line <;> simp
  | @header _ _ line _ _ _ _ _ _ _ _ _ => cases line <;> simp

section Lines

variable {s next : HeaderState} {line concatLine rest body : Bytes} {headers after : Headers} {c : UInt8}

theorem headerLine_blank (within : 10 ∉ line) (empty : compressLWSAndRemoveCR line = []) (old : Bytes) :
    headerLine ⟨old, [], headers, fresh (line ++ 10 :: rest)⟩ =
      .ok (.done (headers, fresh rest)) := by
  simp only [headerLine, getline_line within, empty, List.nil_append, if_true]

theorem headerLine_folded (within : 10 ∉ line)
    (text : concatLine ++ compressLWSAndRemoveCR line ≠ []) (blank : c = 32 ∨ c = 9) (old : Bytes) :
    headerLine ⟨old, concatLine, headers, fresh (line ++ 10 :: c :: rest)⟩ =
      .ok (.again ⟨compressLWSAndRemoveCR line, concatLine ++ compressLWSAndRemoveCR line, headers,
        fresh (c :: rest)⟩) := by
  simp only [headerLine, getline_line within, if_neg text, peek_cons]
  rcases blank with rfl | rfl <;> rfl

theorem headerLine_header (within : 10 ∉ line)
    (text : concatLine ++ compressLWSAndRemoveCR line ≠ []) (first : c ≠ 32 ∧ c ≠ 9)
    (parsed : addParsed headers (concatLine ++ compressLWSAndRemoveCR line) = .ok after)
    (old : Bytes) :
    headerLine ⟨old, concatLine, headers, fresh (line ++ 10 :: c :: rest)⟩ =
      .ok (.again ⟨compressLWSAndRemoveCR line, [], after, fresh (c :: rest)⟩) := by
  simp only [headerLine, getline_line within, if_neg text, peek_cons, Option.some.injEq,
    if_neg first.1, if_neg first.2, parsed]
  rfl

/-- The loop accepts the lines of the grammar and leaves what comes after them in the stream. -/
theorem returns_of_headerLines (accepted : HeaderLines concatLine headers rest after) (old : Bytes) :
    (loop headerLine ⟨old, concatLine, headers, fresh (rest ++ body)⟩).Returns
      (.ok (after, fresh body)) := by
  induction accepted generalizing old with
  | @blank line headers within empty =>
      refine ⟨1, ?_⟩
      rw [List.append_assoc, List.singleton_append]
      simp only [loop, iterate, headerLine_blank within empty]
  | @folded concatLine headers line c rest after within text blank further ih =>
      rw [List.append_assoc, List.cons_append, List.cons_append]
      rw [returns_again (headerLine_folded within text blank old)]
      exact ih _
  | @header concatLine headers line c rest added after within text first parsed further ih =>
      rw [List.append_assoc, List.cons_append, List.cons_append]
      rw [returns_again (headerLine_header within text first parsed old)]
      exact ih _

/-- A line that ends the loop with the stream still good. -/
theorem headerLine_done {rs : IStream} (good : rs.good = true)
    (done : headerLine s = .ok (.done (after, rs))) :
    ∃ line, 10 ∉ line ∧ compressLWSAndRemoveCR line = [] ∧ s.concatLine = [] ∧
      s.headers = after ∧ s.rs = fresh (line ++ 10 :: rs.unread) := by
  rcases read : s.rs.getline s.line 10 with ⟨line, left⟩
  simp only [headerLine, read] at done
  split at done
  · rename_i empty
    cases done
    obtain ⟨within, text⟩ := getline_good read good
    obtain ⟨concat, compressed⟩ := List.append_eq_nil_iff.mp empty
    exact ⟨line, within, compressed, concat, rfl, text⟩
  · exfalso
    split at done
    · cases done
    · split at done
      · cases done
      · rcases added : addParsed s.headers (s.concatLine ++ compressLWSAndRemoveCR line) with e | h
        · rw [added] at done
          cases done
        · rw [added] at done
          cases done

/-- A stream that is still good after the loop held lines of the grammar. -/
theorem headerLines_of_iterate {fuel : Nat} {rs : IStream} (good : rs.good = true)
    (result : iterate headerLine fuel s = some (.ok (after, rs))) :
    ∃ lines, HeaderLines s.concatLine s.headers lines after ∧ s.rs = fresh (lines ++ rs.unread) := by
  induction fuel generalizing s with
  | zero => cases result
  | succ fuel ih =>
      simp only [iterate] at result
      rcases step : headerLine s with e | next | ⟨h, left⟩
      · rw [step] at result
        cases result
      · rw [step] at result
        obtain ⟨lines, accepted, stream⟩ := ih result
        obtain ⟨c, rest, rfl⟩ := accepted.nonempty
        obtain ⟨line, left, read, compressed, text, later⟩ := headerLine_again step
        have same : left = fresh (c :: rest ++ rs.unread) := by
          rcases later with ⟨_, _, -, -, unchanged, -⟩ | ⟨unchanged, -⟩
          · rw [← unchanged, stream]
          · obtain ⟨_, _, fresh'⟩ := good_of_peeks (s := left) (by rw [← unchanged, stream, good_fresh])
            rw [← stream, unchanged, fresh', peek_cons, peek_cons]
        obtain ⟨within, whole⟩ := getline_good read (by rw [same, good_fresh])
        rw [compressed] at text
        refine ⟨line ++ 10 :: c :: rest, ?_, by simp [whole, same, fresh]⟩
        rcases later with ⟨c', _, first, blank, -, concat, unchanged⟩ |
          ⟨-, noBlank, noTab, concat, parsed⟩
        · rw [same] at first
          cases first
          rw [concat, unchanged, compressed] at accepted
          exact .folded within text blank accepted
        · rw [same, List.cons_append, peek_cons] at noBlank noTab
          rw [concat] at accepted
          rw [compressed] at parsed
          exact .header within text ⟨by simpa using noBlank, by simpa [peek_cons] using noTab⟩
            parsed accepted
      · rw [step] at result
        cases result
        obtain ⟨line, within, compressed, concat, unchanged, text⟩ := headerLine_done good step
        refine ⟨line ++ [10], ?_, by simp [text]⟩
        rw [concat, unchanged]
        exact .blank within compressed

end Lines

/-! ## The chunk loop -/

/-- The last line of a stream, not ended, that the loop takes for a chunk header of size 0 but not for
the final one. -/
structure ZeroHeader (text : Bytes) : Prop where
  within : 10 ∉ text
  first : charAt text 0 ≠ 48
  value : stoll 16 text = .ok 0

/-- A chunk that is complete: its header line, and its data, whose size fits. -/
structure WholeChunk (maxSize size : Nat) (header data : Bytes) : Prop where
  within : 10 ∉ header
  first : charAt header 0 ≠ 48
  value : ∃ number, stoll 16 header = .ok number ∧ toSizeT number = data.length
  fits : size + data.length ≤ maxSize

/-- The bodies on which the loop does not end, with this much data before: complete chunks, each with
two lines after its data, and where the next chunk header or one of the two lines should come, a line that
is not ended and that is read as a chunk header of size 0 ever after. -/
inductive EndlessChunks (maxSize : Nat) : Nat → Bytes → Prop
  | header {size text} (zero : ZeroHeader text) : EndlessChunks maxSize size text
  | afterData {size header data text} (whole : WholeChunk maxSize size header data)
      (zero : ZeroHeader text) : EndlessChunks maxSize size (header ++ 10 :: (data ++ text))
  | afterLine {size header data line text} (whole : WholeChunk maxSize size header data)
      (within : 10 ∉ line) (zero : ZeroHeader text) :
      EndlessChunks maxSize size (header ++ 10 :: (data ++ (line ++ 10 :: text)))
  | chunk {size header data line empty rest} (whole : WholeChunk maxSize size header data)
      (within : 10 ∉ line) (within' : 10 ∉ empty)
      (further : EndlessChunks maxSize (size + data.length) rest) :
      EndlessChunks maxSize size (header ++ 10 :: (data ++ (line ++ 10 :: (empty ++ 10 :: rest))))

section Chunks

variable {maxSize : Nat} {header data piece line empty text rest : Bytes} {rs : IStream}

theorem stoll_range {base : Nat} {s : Bytes} {number : Int} (converted : stoll base s = .ok number) :
    -2 ^ 63 ≤ number ∧ number < 2 ^ 63 := by
  simp only [stoll] at converted
  generalize digitRun base _ = digits at converted
  split at converted
  · cases converted
  · split at converted
    · split at converted
      · cases converted
        omega
      · cases converted
    · split at converted
      · cases converted
        omega
      · cases converted

theorem toSizeT_eq_zero {base : Nat} {s : Bytes} {number : Int}
    (converted : stoll base s = .ok number) (zero : toSizeT number = 0) : number = 0 := by
  obtain ⟨low, high⟩ := stoll_range converted
  simp only [toSizeT] at zero
  omega

/-- An iteration whose chunk fits, in the string and with the data before it. -/
theorem chunk_fits {s : ChunkState} {number : Int} (first : charAt s.chunkHeader 0 ≠ 48)
    (value : stoll 16 s.chunkHeader = .ok number)
    (fits : s.data.length + toSizeT number ≤ maxSize) :
    chunk maxSize s = .ok (.again
      ⟨(afterChunk s.chunkHeader (s.rs.read (toSizeT number)).2).1,
        s.data ++ (s.rs.read (toSizeT number)).1,
        (afterChunk s.chunkHeader (s.rs.read (toSizeT number)).2).2⟩) := by
  have size := length_read s.rs (toSizeT number)
  simp only [chunk, if_neg first, value, Bind.bind, Except.bind, readData]
  rw [if_neg (by omega)]
  simp only [List.length_append, size]
  rw [if_neg (by omega)]
  rfl

theorem chunk_too_large {s : ChunkState} {number : Int} (first : charAt s.chunkHeader 0 ≠ 48)
    (value : stoll 16 s.chunkHeader = .ok number)
    (large : ¬ s.data.length + toSizeT number ≤ maxSize) :
    chunk maxSize s = .error .length_error := by
  have size := length_read s.rs (toSizeT number)
  simp only [chunk, if_neg first, value, Bind.bind, Except.bind, readData]
  by_cases alone : maxSize < toSizeT number
  · rw [if_pos alone]
  · rw [if_neg alone]
    simp only [List.length_append, size]
    rw [if_pos (by omega)]

/-- A stream that is not good leaves the string alone. -/
theorem afterChunk_of_not_good (bad : rs.good = false) (header : Bytes) :
    (afterChunk header rs).1 = header ∧ (afterChunk header rs).2.good = false := by
  simp only [afterChunk, getline_of_not_good bad, getline_of_not_good (not_good_of_failbit _)]
  exact ⟨trivial, not_good_of_failbit rs⟩

/-- The loop does not end on a stream that is not good with a header of size 0. -/
theorem not_ends_of_zero {s : ChunkState} (bad : s.rs.good = false)
    (first : charAt s.chunkHeader 0 ≠ 48) (value : stoll 16 s.chunkHeader = .ok 0)
    (fits : s.data.length ≤ maxSize) : ¬ (loop (chunk maxSize) s).Ends := by
  refine not_ends_of_invariant (P := fun t => t.rs.good = false ∧ t.chunkHeader = s.chunkHeader ∧
    t.data.length ≤ maxSize) ?_ ⟨bad, rfl, fits⟩
  rintro t ⟨bad', same, fits'⟩
  rw [← same] at first value
  have read := read_of_not_good bad' (toSizeT 0)
  have after := afterChunk_of_not_good (not_good_of_failbit t.rs) t.chunkHeader
  refine ⟨_, chunk_fits first value fits', ?_⟩
  rw [read]
  exact ⟨after.2, after.1.trans same, by simpa [toSizeT] using fits'⟩

/-- It ends with any other header: the data becomes too large for a string. -/
theorem ends_of_not_good {s : ChunkState} (bad : s.rs.good = false)
    (other : charAt s.chunkHeader 0 ≠ 48 → stoll 16 s.chunkHeader ≠ .ok 0) :
    (loop (chunk maxSize) s).Ends := by
  refine ends_of_measure (P := fun t => t.rs.good = false ∧ t.chunkHeader = s.chunkHeader)
    (fun t => maxSize - t.data.length) ?_ ⟨bad, rfl⟩
  rintro t next ⟨bad', same⟩ again
  rw [← same] at other
  by_cases first : charAt t.chunkHeader 0 = 48
  · simp only [chunk, if_pos first] at again
    cases again
  · rcases value : stoll 16 t.chunkHeader with e | number
    · simp only [chunk, if_neg first, value, Bind.bind, Except.bind] at again
      cases again
    · have positive : 0 < toSizeT number := by
        rcases Nat.eq_zero_or_pos (toSizeT number) with zero | positive
        · exact absurd (toSizeT_eq_zero value zero ▸ value) (other first)
        · exact positive
      by_cases fits : t.data.length + toSizeT number ≤ maxSize
      · have after := afterChunk_of_not_good (not_good_of_failbit t.rs) t.chunkHeader
        rw [chunk_fits first value fits, read_of_not_good bad'] at again
        cases again
        refine ⟨⟨after.2, after.1.trans same⟩, ?_⟩
        simp only [List.length_append, List.length_replicate]
        omega
      · rw [chunk_too_large first value fits] at again
        cases again

theorem getline_fresh (text old : Bytes) : (fresh text).getline old 10 = (fresh text).getline [] 10 :=
  rfl

/-- The line after the data, or the empty line after it, is the last one. -/
theorem afterChunk_last (within : 10 ∉ text) (header : Bytes) :
    (afterChunk header (fresh text)).1 = text ∧ (afterChunk header (fresh text)).2.good = false := by
  have bad : IStream.good ⟨[], true, text.isEmpty, false⟩ = false := rfl
  have worse : IStream.good ⟨[], true, true, false⟩ = false := rfl
  simp only [afterChunk, getline_last within, getline_of_not_good bad, getline_of_not_good worse]
  exact ⟨trivial, rfl⟩

theorem afterChunk_line (within : 10 ∉ line) (within' : 10 ∉ text) (header : Bytes) :
    (afterChunk header (fresh (line ++ 10 :: text))).1 = text ∧
      (afterChunk header (fresh (line ++ 10 :: text))).2.good = false := by
  have bad : IStream.good ⟨[], true, text.isEmpty, false⟩ = false := rfl
  simp only [afterChunk, getline_line within, getline_last within', getline_of_not_good bad]
  exact ⟨trivial, rfl⟩

theorem afterChunk_lines (within : 10 ∉ line) (within' : 10 ∉ empty) (header : Bytes) :
    afterChunk header (fresh (line ++ 10 :: (empty ++ 10 :: rest))) = (fresh rest).getline [] 10 := by
  simp only [afterChunk, getline_line within, getline_line within']
  exact getline_fresh rest empty

/-- The loop from the point where a chunk header is to be read. -/
def chunksFrom (maxSize : Nat) (data : Bytes) (rs : IStream) : Bounded StdException (Bytes × IStream) :=
  loop (chunk maxSize) ⟨(rs.getline [] 10).1, data, (rs.getline [] 10).2⟩

/-- On a stream that is not good, the loop ends unless it stands at a header of size 0. -/
theorem ends_stuck {s : ChunkState} (stuck : s.chunkHeader = text ∧ s.rs.good = false)
    (within : 10 ∉ text) (fits : s.data.length ≤ maxSize) :
    (loop (chunk maxSize) s).Ends ↔ ¬ ZeroHeader text := by
  obtain ⟨rfl, bad⟩ := stuck
  constructor
  · intro ends zero
    exact not_ends_of_zero bad zero.first zero.value fits ends
  · intro other
    exact ends_of_not_good bad (fun first value => other ⟨within, first, value⟩)

theorem ends_chunksFrom_last (within : 10 ∉ text) (fits : data.length ≤ maxSize) :
    (chunksFrom maxSize data (fresh text)).Ends ↔ ¬ ZeroHeader text := by
  rw [chunksFrom, getline_last within]
  exact ends_stuck ⟨rfl, rfl⟩ within fits

/-- After a complete chunk the loop goes on with what comes after its data. -/
theorem ends_chunksFrom_whole (whole : WholeChunk maxSize data.length header piece) :
    (chunksFrom maxSize data (fresh (header ++ 10 :: (piece ++ rest)))).Ends ↔
      (loop (chunk maxSize) ⟨(afterChunk header (fresh rest)).1, data ++ piece,
        (afterChunk header (fresh rest)).2⟩).Ends := by
  obtain ⟨number, value, size⟩ := whole.value
  have fits := whole.fits
  rw [← size] at fits
  rw [chunksFrom, getline_line whole.within, ends_again (chunk_fits whole.first value fits), size]
  rw [read_whole]

/-- If the data of a chunk is cut off, the loop goes on with its header until a string is full. -/
theorem ends_chunksFrom_short {number : Int} (within : 10 ∉ header) (first : charAt header 0 ≠ 48)
    (value : stoll 16 header = .ok number) (fits : data.length + toSizeT number ≤ maxSize)
    (short : rest.length < toSizeT number) :
    (chunksFrom maxSize data (fresh (header ++ 10 :: rest))).Ends := by
  rw [chunksFrom, getline_line within, ends_again (chunk_fits first value fits)]
  have bad : ((fresh rest).read (toSizeT number)).2.good = false := by rw [read_short short]; rfl
  obtain ⟨same, worse⟩ := afterChunk_of_not_good bad header
  refine ends_of_not_good worse ?_
  intro _ zero
  rw [same, value] at zero
  cases zero
  cases short

theorem not_ends_of_endless {size : Nat} (data : Bytes) (endless : EndlessChunks maxSize size text)
    (same : data.length = size) (fits : data.length ≤ maxSize) :
    ¬ (chunksFrom maxSize data (fresh text)).Ends := by
  induction endless generalizing data with
  | header zero =>
      intro ends
      exact (ends_chunksFrom_last zero.within fits).mp ends zero
  | @afterData size header piece text whole zero =>
      subst same
      have further := whole.fits
      rw [← List.length_append] at further
      rw [ends_chunksFrom_whole whole,
        ends_stuck (afterChunk_last zero.within header) zero.within further]
      exact fun other => other zero
  | @afterLine size header piece line text whole within zero =>
      subst same
      have further := whole.fits
      rw [← List.length_append] at further
      rw [ends_chunksFrom_whole whole,
        ends_stuck (afterChunk_line within zero.within header) zero.within further]
      exact fun other => other zero
  | @chunk size header piece line empty rest whole within within' further ih =>
      subst same
      have fits' := whole.fits
      rw [← List.length_append] at fits'
      rw [ends_chunksFrom_whole whole, afterChunk_lines within within']
      exact ih (data ++ piece) (List.length_append ..) fits'

/-- After a complete chunk, by what comes after its data. -/
theorem ends_of_whole (whole : WholeChunk maxSize data.length header piece)
    (other : ¬ EndlessChunks maxSize data.length (header ++ 10 :: (piece ++ rest)))
    (further : ∀ {left : Bytes}, left.length < rest.length →
      ¬ EndlessChunks maxSize (data ++ piece).length left →
      (chunksFrom maxSize (data ++ piece) (fresh left)).Ends) :
    (chunksFrom maxSize data (fresh (header ++ 10 :: (piece ++ rest)))).Ends := by
  have fits := whole.fits
  rw [← List.length_append] at fits
  rw [ends_chunksFrom_whole whole]
  rcases line_or_last rest 10 with ⟨line, rest, within, rfl⟩ | within
  · rcases line_or_last rest 10 with ⟨empty, rest, within', rfl⟩ | within'
    · rw [afterChunk_lines within within']
      refine further ?_ ?_
      · simp only [List.length_append, List.length_cons]
        omega
      · intro endless
        rw [List.length_append] at endless
        exact other (.chunk whole within within' endless)
    · rw [ends_stuck (afterChunk_line within within' header) within' fits]
      exact fun zero => other (.afterLine whole within zero)
  · rw [ends_stuck (afterChunk_last within header) within fits]
    exact fun zero => other (.afterData whole zero)

theorem ends_of_not_endless (data : Bytes) (fits : data.length ≤ maxSize)
    (other : ¬ EndlessChunks maxSize data.length text) :
    (chunksFrom maxSize data (fresh text)).Ends := by
  induction size : text.length using Nat.strong_induction_on generalizing text data with
  | _ n ih =>
  rcases line_or_last text 10 with ⟨header, rest, within, rfl⟩ | within
  · by_cases first : charAt header 0 = 48
    · exact ends_of_done (a := (data, fresh rest)) (by simp [chunk, getline_line within, first])
    rcases value : stoll 16 header with e | number
    · exact ends_of_error (e := e) (by
        simp [chunk, getline_line within, first, value, Bind.bind, Except.bind])
    by_cases small : data.length + toSizeT number ≤ maxSize
    · rcases Nat.lt_or_ge rest.length (toSizeT number) with short | enough
      · exact ends_chunksFrom_short within first value small short
      · obtain ⟨piece, rest, rfl, count⟩ : ∃ piece left, rest = piece ++ left ∧
            toSizeT number = piece.length :=
          ⟨rest.take (toSizeT number), rest.drop (toSizeT number), by simp, by simp [enough]⟩
        have whole : WholeChunk maxSize data.length header piece :=
          ⟨within, first, ⟨number, value, count⟩, count ▸ small⟩
        refine ends_of_whole whole other ?_
        intro left less other'
        refine ih left.length ?_ (data ++ piece) ?_ other' rfl
        · rw [← size]
          simp only [List.length_append, List.length_cons]
          omega
        · rw [List.length_append]
          exact whole.fits
    · exact ends_of_error (e := .length_error)
        (by rw [getline_line within]; exact chunk_too_large first value small)
  · rw [ends_chunksFrom_last within fits]
    exact fun zero => other (.header zero)

theorem ends_readChunkedData (maxSize : Nat) (body : Bytes) :
    (readChunkedData maxSize (fresh body)).Ends ↔ ¬ EndlessChunks maxSize 0 body := by
  constructor
  · intro ends endless
    exact not_ends_of_endless [] endless rfl (Nat.zero_le _) ends
  · intro other
    exact ends_of_not_endless [] (Nat.zero_le _) other

/-- A stream that is not good has no chunk header at all. -/
theorem returns_readChunkedData_of_not_good (bad : rs.good = false) :
    (readChunkedData maxSize rs).Returns (.error .invalid_argument) := by
  simp only [readChunkedData, getline_of_not_good bad]
  exact ⟨1, rfl⟩

end Chunks

/-! ## The request -/

theorem ends_readTrailers (trailerLength : Nat) (headers : Headers) (rs : IStream) :
    (readTrailers trailerLength headers rs).Ends := by
  refine (ends_bind_of_ends (stable_loop _ _) ?_ (ends_trailerLoop ..)).mpr ?_
  · rintro ⟨added, count⟩
    dsimp only
    split <;> exact stable_lift _
  · rintro ⟨added, count⟩ _
    dsimp only
    split <;> exact ends_lift _

theorem stable_readTrailers (trailerLength : Nat) (headers : Headers) (rs : IStream) :
    (readTrailers trailerLength headers rs).Stable := by
  refine Stable.bind (stable_loop _ _) ?_
  rintro ⟨added, count⟩
  dsimp only
  split <;> exact stable_lift _

theorem stable_readRemainder (m : HTTPRequest) (trailerLength : Nat) (body : Bytes) (rs : IStream) :
    (readRemainder m trailerLength body rs).Stable :=
  Stable.bind (stable_readTrailers _ _ _) (fun _ => stable_pure _)

theorem ends_readRemainder (m : HTTPRequest) (trailerLength : Nat) (body : Bytes) (rs : IStream) :
    (readRemainder m trailerLength body rs).Ends :=
  (ends_bind_of_ends (stable_readTrailers _ _ _) (fun _ => stable_pure _)
    (ends_readTrailers _ _ _)).mpr (fun _ _ => ends_lift _)

theorem stable_readBody (env : Surroundings) (m : HTTPRequest) (rs : IStream) (plan : BodyPlan) :
    (readBody env m rs plan).Stable := by
  cases plan with
  | none => exact stable_pure _
  | chunked trailerLength expect =>
      exact Stable.bind (stable_loop _ _) (fun _ => stable_readRemainder m trailerLength _ _)
  | contentLength length expect => exact Stable.bind (stable_lift _) (fun _ => stable_pure _)

/-- Only the body of a chunked request may be read without end. -/
theorem ends_readBody (env : Surroundings) (m : HTTPRequest) (rs : IStream) (plan : BodyPlan) :
    (readBody env m rs plan).Ends ↔ ∀ trailerLength expect, plan = .chunked trailerLength expect →
      (readChunkedData env.maxSize (sendContinue env expect rs)).Ends := by
  cases plan with
  | none => exact ⟨fun _ _ _ other => BodyPlan.noConfusion other, fun _ => ends_lift _⟩
  | contentLength length expect =>
      refine ⟨fun _ _ _ other => BodyPlan.noConfusion other, fun _ => ?_⟩
      exact (ends_bind_of_ends (stable_lift _) (fun _ => stable_pure _) (ends_lift _)).mpr
        (fun _ _ => ends_lift _)
  | chunked trailerLength expect =>
      have left : (readBody env m rs (.chunked trailerLength expect)).Ends ↔
          (readChunkedData env.maxSize (sendContinue env expect rs)).Ends :=
        ends_bind_left (stable_loop _ _) (fun _ => stable_readRemainder m trailerLength _ _)
          (fun _ => ends_readRemainder m trailerLength _ _)
      rw [left]
      constructor
      · rintro ends _ _ ⟨⟩
        exact ends
      · intro ends
        exact ends trailerLength expect rfl

theorem stable_readAnnounced (env : Surroundings) (m : HTTPRequest) (rs : IStream) :
    (readAnnounced env m rs).Stable :=
  Stable.bind (stable_lift _) (fun plan => stable_readBody env m rs plan)

theorem ends_readAnnounced (env : Surroundings) (m : HTTPRequest) (rs : IStream) :
    (readAnnounced env m rs).Ends ↔
      ∀ plan, bodyPlan m = .ok plan → (readBody env m rs plan).Ends := by
  refine (ends_bind_of_ends (stable_lift _) (stable_readBody env m rs) (ends_lift _)).trans ?_
  simp only [returns_lift]

theorem stable_readMessage (env : Surroundings) (m : HTTPRequest) (rs : IStream) :
    (readMessage env m rs).Stable :=
  Stable.bind (stable_loop _ _) (fun _ => stable_readAnnounced env _ _)

theorem ends_readMessage (env : Surroundings) (m : HTTPRequest) (rs : IStream) :
    (readMessage env m rs).Ends ↔
      ∀ headers left, (readHeaders rs).Returns (.ok (headers, left)) →
        (readAnnounced env { m with headers := headers } left).Ends := by
  refine (ends_bind_of_ends (stable_loop _ _) (fun _ => stable_readAnnounced env _ _)
    (ends_readHeaders rs)).trans ?_
  exact Prod.forall

theorem ends_readRequest (env : Surroundings) (rs : IStream) :
    (readRequest env rs).Ends ↔
      ∀ m left, readRequestLine rs = .ok (m, left) → (readMessage env m left).Ends := by
  refine (ends_bind_of_ends (stable_lift _) (fun _ => stable_readMessage env _ _)
    (ends_lift _)).trans ?_
  simp only [returns_lift, Prod.forall]

/-- A request line and header lines that announce a chunked body, for which the interim response, if
the client waits for it, can be sent, and a body on which the chunk loop does not end. -/
structure EndlessRequest (env : Surroundings) (requestLine lines body : Bytes) : Prop where
  within : 10 ∉ requestLine
  chunked : ∃ m headers trailerLength expect, parseRequestLine requestLine = .ok m ∧
    HeaderLines [] [] lines headers ∧
    bodyPlan { m with headers := headers } = .ok (.chunked trailerLength expect) ∧
    (expect = true → env.continueSent = true)
  body : EndlessChunks env.maxSize 0 body

theorem sendContinue_of_sent {env : Surroundings} {expect : Bool}
    (sent : expect = true → env.continueSent = true) (rs : IStream) :
    sendContinue env expect rs = rs := by
  rw [sendContinue, if_neg]
  cases expect with
  | false => simp
  | true => simp [sent rfl]

theorem readRequestLine_line {requestLine rest : Bytes} (within : 10 ∉ requestLine) :
    readRequestLine (fresh (requestLine ++ 10 :: rest)) =
      (parseRequestLine requestLine).map (·, fresh rest) := by
  simp only [readRequestLine, getline_line within]
  rfl

theorem not_ends_of_endlessRequest {env : Surroundings} {requestLine lines body : Bytes}
    (endless : EndlessRequest env requestLine lines body) :
    ¬ (readRequest env (fresh (requestLine ++ 10 :: (lines ++ body)))).Ends := by
  obtain ⟨m, headers, trailerLength, expect, parsed, accepted, planned, sent⟩ := endless.chunked
  intro ends
  have line : readRequestLine (fresh (requestLine ++ 10 :: (lines ++ body))) =
      .ok (m, fresh (lines ++ body)) := by
    rw [readRequestLine_line endless.within, parsed]
    rfl
  have message := (ends_readRequest env _).mp ends m _ line
  have announced := (ends_readMessage env m _).mp message headers _ (returns_of_headerLines accepted [])
  have bodyEnds := (ends_readAnnounced env _ _).mp announced _ planned
  have chunksEnd := (ends_readBody env _ _ _).mp bodyEnds trailerLength expect rfl
  rw [sendContinue_of_sent sent, ends_readChunkedData] at chunksEnd
  exact chunksEnd endless.body

/-- A request whose stream is still good after the headers has the form that the grammar gives it. -/
theorem head_of_good {input : Bytes} {m : HTTPRequest} {headers : Headers} {left rs : IStream}
    (line : readRequestLine (fresh input) = .ok (m, left))
    (returned : (readHeaders left).Returns (.ok (headers, rs))) (good : rs.good = true) :
    ∃ requestLine lines, input = requestLine ++ 10 :: (lines ++ rs.unread) ∧ 10 ∉ requestLine ∧
      parseRequestLine requestLine = .ok m ∧ HeaderLines [] [] lines headers := by
  obtain ⟨fuel, result⟩ := returned
  obtain ⟨lines, accepted, stream⟩ := headerLines_of_iterate good result
  rcases line_or_last input 10 with ⟨requestLine, rest, within, rfl⟩ | within
  · rw [readRequestLine_line within] at line
    rcases parsed : parseRequestLine requestLine with e | m'
    · rw [parsed] at line
      cases line
    · rw [parsed] at line
      cases line
      cases stream
      exact ⟨requestLine, lines, rfl, within, parsed, accepted⟩
  · exfalso
    simp only [readRequestLine, getline_last within] at line
    split at line
    · cases line
    · rcases parsed : parseRequestLine input with e | m'
      · rw [parsed] at line
        cases line
      · rw [parsed] at line
        cases line
        cases congrArg eofbit stream

theorem sendContinue_not_good {env : Surroundings} {expect : Bool}
    (failed : ¬ (expect = true → env.continueSent = true)) (rs : IStream) :
    (sendContinue env expect rs).good = false := by
  rw [sendContinue, if_pos]
  · simp [good]
  · simpa using failed

/-- Reading a request ends, by returning or by throwing, unless the request is one of these. -/
theorem readRequest_ends_iff (env : Surroundings) (input : Bytes) :
    (readRequest env (fresh input)).Ends ↔
      ¬ ∃ requestLine lines body, input = requestLine ++ 10 :: (lines ++ body) ∧
        EndlessRequest env requestLine lines body := by
  constructor
  · rintro ends ⟨requestLine, lines, body, rfl, endless⟩
    exact not_ends_of_endlessRequest endless ends
  · intro other
    refine (ends_readRequest env _).mpr (fun m left line => ?_)
    refine (ends_readMessage env m left).mpr (fun headers rs returned => ?_)
    refine (ends_readAnnounced env _ rs).mpr (fun plan planned => ?_)
    refine (ends_readBody env _ rs plan).mpr ?_
    rintro trailerLength expect rfl
    by_cases sent : expect = true → env.continueSent = true
    · rw [sendContinue_of_sent sent]
      rcases state : rs.good with - | -
      · exact ⟨_, returns_readChunkedData_of_not_good state⟩
      · obtain ⟨requestLine, lines, whole, within, parsed, accepted⟩ :=
          head_of_good line returned state
        rw [eq_fresh_of_good state, ends_readChunkedData]
        intro endless
        exact other ⟨requestLine, lines, rs.unread, whole, within,
          ⟨m, headers, trailerLength, expect, parsed, accepted, planned, sent⟩, endless⟩
    · exact ⟨_, returns_readChunkedData_of_not_good (sendContinue_not_good sent rs)⟩

theorem HeaderLines.stop (headers : Headers) : HeaderLines [] headers [13, 10] headers := by
  have empty : compressLWSAndRemoveCR [13] = [] := by
    rw [compress_single (by decide)]
    rfl
  exact .blank (by decide) empty

/-- A header on one line, without white space that is compressed. -/
theorem HeaderLines.line (text : Bytes) {headers added after : Headers} {rest : Bytes} {c : UInt8}
    (single : ∀ i < (text ++ [13]).length - 1,
      (isspace (charAt (text ++ [13]) i) && isspace (charAt (text ++ [13]) (i + 1))) = false)
    (within : 10 ∉ text ++ [13]) (nonempty : text ≠ []) (first : c ≠ 32 ∧ c ≠ 9)
    (parsed : addParsed headers text = .ok added) (further : HeaderLines [] added (c :: rest) after) :
    HeaderLines [] headers (text ++ [13] ++ 10 :: c :: rest) after := by
  have compressed : [] ++ compressLWSAndRemoveCR (text ++ [13]) = text := by
    rw [compress_single single]
    simp
  refine .header within ?_ first ?_ further
  · rw [compressed]
    exact nonempty
  · rw [compressed]
    exact parsed

theorem headerLines_chunked : HeaderLines [] [] (ascii "Transfer-Encoding: chunked\r\n\r\n")
    [(ascii "Transfer-Encoding", ⟨ascii "Transfer-Encoding", ascii " chunked", .string, []⟩)] :=
  .line (ascii "Transfer-Encoding: chunked") (by decide) (by decide) (by decide) (by decide)
    (by decide) (.stop _)

/-- The client closes the connection after a blank and a `0` where a chunk header is expected. -/
theorem readRequest_endless :
    ¬ (readRequest ⟨2 ^ 62 - 1, true⟩ (fresh (ascii
      "POST / HTTP/1.1\r\nTransfer-Encoding: chunked\r\n\r\n 0"))).Ends := by
  have endless : EndlessRequest ⟨2 ^ 62 - 1, true⟩ (ascii "POST / HTTP/1.1\r")
      (ascii "Transfer-Encoding: chunked\r\n\r\n") (ascii " 0") := by
    refine ⟨by decide, ?_, .header ⟨by decide, by decide, by decide⟩⟩
    exact ⟨{ protocol := .http_1_1, method := .post, url := { path := ascii "/" } }, _, 0, false,
      by decide, headerLines_chunked, by decide +kernel, nofun⟩
  exact not_ends_of_endlessRequest endless

end Pcm.Http
