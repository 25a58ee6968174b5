import BlockPuzzle.Proofs.Form.Splitting

/-!
# Nothing is lost

A text without a fault is put together again from its tokens (`Token.Piece`): between them stand only
blanks and comments, an atom is as long as it can be on either side, and the offset of a token counts
the bytes in front of it. A cursor never stands inside of a character. With each token it moves on, and
behind one that cannot be read it stays at the end (`Cursor.Steady`). Both hold of every text:
`Cursor.tokens_lossless`.
-/

namespace BlockPuzzle

open Text (byteLength byteLength_append byteLength_cons)

/-! ## Pieces of a text -/

/-- No atom comes up to the end of a text. -/
def Ends (text : List Char) : Prop :=
  ∀ c ∈ text.getLast?, Token.isAtomChar c = false

namespace Token

/-- A token as it stands in a text: the gap in front of it, its characters, and the byte that they
start at. -/
structure Piece where
  gap : List Char
  lexeme : List Char
  offset : Nat
  token : Token

/-- Pieces put together, one behind the other. -/
def joined (pieces : List Token.Piece) : List Char :=
  pieces.flatMap fun piece => piece.gap ++ piece.lexeme

/-- A piece fits between what stands before it and behind it. An atom could not be longer, neither to
the left nor to the right. -/
structure Piece.Fits (before : List Char) (piece : Token.Piece) (behind : List Char) : Prop where
  gap : Trivia piece.gap
  lexeme : piece.token.Lexeme piece.lexeme
  offset : piece.offset = (String.ofList (before ++ piece.gap)).utf8ByteSize
  maximal : piece.token.isAtom = true → Ends (before ++ piece.gap) ∧ Cursor.Breaks behind

end Token

namespace Ends

variable {text : List Char}

/-- No atom comes up to the end of a character that is none of its own. -/
lemma singleton {c : Char} (outside : Token.isAtomChar c = false) : Ends [c] := by
  intro d last
  cases last
  exact outside

/-- What stands before a text does not matter for its end. -/
lemma behind (ends : Ends text) (nonempty : text ≠ []) (before : List Char) :
    Ends (before ++ text) := by
  intro c last
  refine ends c ?_
  rwa [List.getLast?_append, List.getLast?_eq_some_getLast nonempty, Option.some_or,
    ← List.getLast?_eq_some_getLast nonempty] at last

/-- Two texts end as the second one does, or as the first one if the second is empty. -/
lemma append {before : List Char} (ends : Ends before) (ends' : Ends text) :
    Ends (before ++ text) := by
  by_cases empty : text = []
  · rwa [empty, List.append_nil]
  · exact ends'.behind empty before

end Ends

/-- Trivia ends with a blank, or with the end of a line. -/
lemma Trivia.ends {gap : List Char} (trivia : Trivia gap) : Ends gap := by
  induction trivia with
  | nil => exact nofun
  | blank blank _ ih => exact (Ends.singleton (Cursor.isAtomChar_of_isBlank blank)).append ih
  | @comment words gap _ _ ih =>
    have line : Ends ['\n'] := .singleton (by decide)
    rw [List.append_cons]
    exact (line.behind (List.cons_ne_nil _ _) _).append ih

namespace Token.Lexeme

variable {token : Token} {lexeme : List Char}

/-- Every token has at least one character. -/
lemma ne_nil (is : token.Lexeme lexeme) : lexeme ≠ [] := by
  rintro rfl
  obtain ⟨_, _, empty, -⟩ := Cursor.significant_lexeme is []
  cases empty

/-- Only an atom ends with an atom character. -/
lemma ends (is : token.Lexeme lexeme) (other : token.isAtom = false) : Ends lexeme := by
  cases is with
  | opening => exact .singleton (by decide)
  | closing => exact .singleton (by decide)
  | text =>
    have quote : Ends ['"'] := .singleton (by decide)
    exact quote.behind (List.cons_ne_nil _ _) _
  | atom => cases other

/-- No atom goes over from a lexeme to what stands behind it. -/
lemma apart {rest : List Char} (is : token.Lexeme lexeme)
    (breaks : token.isAtom = true → Cursor.Breaks rest) (before : List Char) :
    Ends (before ++ lexeme) ∨ Cursor.Breaks rest := by
  cases atom : token.isAtom with
  | true => exact .inr (breaks atom)
  | false => exact .inl ((is.ends atom).behind is.ne_nil before)

/-- A lexeme fits where no atom goes over to it. -/
lemma fits {before gap rest : List Char} {offset : Nat} (is : token.Lexeme lexeme)
    (trivia : Trivia gap) (here : offset = byteLength before)
    (apart : Ends before ∨ Cursor.Breaks (gap ++ (lexeme ++ rest)))
    (breaks : token.isAtom = true → Cursor.Breaks rest) :
    Token.Piece.Fits before ⟨gap, lexeme, offset + byteLength gap, token⟩ rest := by
  refine ⟨trivia, is, ?_, fun atom => ⟨?_, breaks atom⟩⟩
  · rw [here, ← byteLength_append, Text.byteLength_eq]
  · by_cases empty : gap = []
    · subst empty
      rw [List.append_nil]
      exact apart.resolve_right (Cursor.not_breaks_lexeme is atom rest)
    · exact trivia.ends.behind empty before

end Token.Lexeme

/-- The pieces of a split text, and the trivia at its end. Before the text stands `before`, and no atom
goes over from there. -/
lemma Split.exists_pieces {offset : Nat} {text : List Char} {tokens : List (Nat × Token)}
    (split : Split offset text tokens none) (before : List Char) (here : offset = byteLength before)
    (apart : Ends before ∨ Cursor.Breaks text) :
    ∃ pieces gap comment, tokens = pieces.map (fun piece => (piece.offset, piece.token)) ∧
      text = Token.joined pieces ++ (gap ++ comment) ∧ Trivia gap ∧ LastComment comment ∧
        ∀ front piece back, pieces = front ++ piece :: back →
          piece.Fits (before ++ Token.joined front) (Token.joined back ++ (gap ++ comment)) := by
  generalize legible : none = fault at split
  induction split generalizing before with
  | @ending offset gap comment trivia last =>
    exact ⟨[], gap, comment, rfl, rfl, trivia, last, by simp⟩
  | broken => cases legible
  | @token offset gap token lexeme text tokens fault trivia is breaks _ ih =>
    have behind : offset + byteLength gap + byteLength lexeme =
        byteLength (before ++ gap ++ lexeme) := by
      rw [here, byteLength_append, byteLength_append]
    obtain ⟨pieces, gap', comment, rfl, rfl, trivia', last, fit⟩ :=
      ih _ behind (is.apart breaks _) legible
    have first := is.fits trivia here apart breaks
    refine ⟨⟨gap, lexeme, offset + byteLength gap, token⟩ :: pieces, gap', comment, rfl, ?_,
      trivia', last, ?_⟩
    · simp [Token.joined]
    · intro front piece back parts
      -- the piece is the first one, or one of the others with the first one before it
      cases front with
      | nil =>
        obtain ⟨rfl, rfl⟩ := List.cons.inj parts
        simpa [Token.joined] using first
      | cons piece' front =>
        obtain ⟨rfl, others⟩ := List.cons.inj parts
        simpa [Token.joined] using fit front piece back others

/-! ## Positions of a cursor -/

namespace Cursor

/-- A cursor gets over some characters to another one, with as many bytes as they have. -/
structure Passes (cursor : Cursor) (passed : List Char) (after : Cursor) : Prop where
  rest : cursor.rest = passed ++ after.rest
  offset : after.offset = cursor.offset + byteLength passed

/-- The cursors that reading a source gets to. -/
inductive Reached (source : String) : Cursor → Prop where
  | start :
    Reached source (start source)
  | next {cursor after result} :
    Reached source cursor →
    cursor.next? = some (result, after) →
    Reached source after

/-- What a cursor in a source can be relied on for: the source goes on ahead of it, and wherever it gets
to from there is not inside of a character, also behind the trivia that it skips. With each token the
offset grows. After a token that cannot be read the cursor is at the end and reads no other. -/
structure Steady (source : String) (cursor : Cursor) : Prop where
  behind : ∃ passed, (start source).Passes passed cursor
  boundary : ∀ passed after, cursor.Passes passed after →
    (⟨after.offset⟩ : String.Pos.Raw).IsValid source
  skips : ∃ gap, cursor.Passes gap (skipTrivia false cursor.offset cursor.rest)
  advances : ∀ result after, cursor.next? = some (result, after) →
    (∃ passed, cursor.Passes passed after) ∧ cursor.offset < after.offset
  stops : ∀ fault after, cursor.next? = some (.error fault, after) →
    after.offset = source.utf8ByteSize ∧ after.next? = none

namespace Passes

variable {source : String} {cursor next after : Cursor} {passed passed' : List Char}

/-- A cursor gets to itself over nothing. -/
lemma refl (cursor : Cursor) : cursor.Passes [] cursor :=
  ⟨rfl, rfl⟩

/-- Getting from one cursor to the next and on to a third gets over the characters of both. -/
lemma trans (passes : cursor.Passes passed next) (passes' : next.Passes passed' after) :
    cursor.Passes (passed ++ passed') after := by
  constructor
  · rw [passes.rest, passes'.rest, List.append_assoc]
  · rw [passes'.offset, passes.offset, byteLength_append, Nat.add_assoc]

/-- Over at least one character the offset grows. -/
lemma lt (passes : cursor.Passes passed after) (nonempty : passed ≠ []) :
    cursor.offset < after.offset := by
  obtain ⟨c, cs, rfl⟩ := List.exists_cons_of_ne_nil nonempty
  have positive := c.utf8Size_pos
  rw [passes.offset, byteLength_cons]
  omega

/-- A cursor that the start of a source gets to is not inside of a character. -/
lemma isValid (passes : (start source).Passes passed cursor) :
    (⟨cursor.offset⟩ : String.Pos.Raw).IsValid source := by
  have whole : source = String.ofList passed ++ String.ofList cursor.rest := by
    rw [← String.ofList_append, ← passes.rest]
    exact String.ofList_toList.symm
  refine String.Pos.Raw.isValid_iff_exists_append.2 ⟨_, _, whole, String.Pos.Raw.ext ?_⟩
  rw [passes.offset, Text.byteLength_eq]
  exact Nat.zero_add _

/-- A cursor with nothing ahead is at the end of the source. -/
lemma offset_eq_of_nil (passes : (start source).Passes passed cursor) (empty : cursor.rest = []) :
    cursor.offset = source.utf8ByteSize := by
  have whole : source.toList = passed := by
    rw [← List.append_nil passed, ← empty]
    exact passes.rest
  rw [passes.offset, ← whole, Text.byteLength_toList]
  exact Nat.zero_add _

end Passes

/-- Skipping trivia gets over the characters that are skipped. -/
lemma skipTrivia_passes (inComment : Bool) (offset : Nat) (text : List Char) :
    ∃ gap, Passes ⟨offset, text⟩ gap (skipTrivia inComment offset text) := by
  induction text generalizing inComment offset with
  | nil => exact ⟨[], .refl _⟩
  | cons c cs ih =>
    have further : ∀ inComment, ∃ gap,
        Passes ⟨offset, c :: cs⟩ gap (skipTrivia inComment (offset + c.utf8Size) cs) := by
      intro inComment
      obtain ⟨gap, passes⟩ := ih inComment (offset + c.utf8Size)
      have one : Passes ⟨offset, c :: cs⟩ [c] ⟨offset + c.utf8Size, cs⟩ :=
        ⟨rfl, by simp [byteLength]⟩
      exact ⟨_, one.trans passes⟩
    unfold skipTrivia
    repeat' split
    · exact further _
    · exact further _
    · exact further _
    · exact ⟨[], .refl _⟩

/-- Reading a token gets over at least one character, and over everything if it cannot be read. -/
lemma passes_of_next? {cursor after : Cursor} {result : Except ReadError (Nat × Token)}
    (reads : cursor.next? = some (result, after)) :
    ∃ passed, cursor.Passes passed after ∧ passed ≠ [] ∧
      ∀ fault, result = .error fault → after.rest = [] := by
  obtain ⟨offset, text⟩ := cursor
  obtain ⟨offset', text'⟩ := after
  obtain ⟨gap, rest, rfl, trivia, last | significant⟩ := exists_trivia text
  · rw [next?_trivia trivia, next?_lastComment last] at reads
    cases reads
  have skips : Passes ⟨offset, gap ++ rest⟩ gap ⟨offset + byteLength gap, rest⟩ := ⟨rfl, rfl⟩
  rw [next?_trivia trivia] at reads
  cases result with
  | ok read =>
    obtain ⟨place, token⟩ := read
    obtain ⟨lexeme, is, rfl, breaks⟩ := lexeme_of_next? significant reads
    cases reads.symm.trans (next?_lexeme is breaks _)
    have takes : Passes ⟨offset + byteLength gap, lexeme ++ text'⟩ lexeme ⟨_, text'⟩ := ⟨rfl, rfl⟩
    exact ⟨_, skips.trans takes, List.append_ne_nil_of_right_ne_nil _ is.ne_nil, nofun⟩
  | error fault =>
    obtain ⟨cs, rfl, broken⟩ := broken_of_next? significant reads
    cases reads.symm.trans (next?_of_broken broken)
    have takes : Passes ⟨offset + byteLength gap, '"' :: cs⟩ ('"' :: cs) ⟨_, []⟩ :=
      ⟨(List.append_nil _).symm, rfl⟩
    exact ⟨_, skips.trans takes, List.append_ne_nil_of_right_ne_nil _ (List.cons_ne_nil _ _),
      fun _ _ => rfl⟩

/-- A cursor that reading gets to is got to from the start over some characters. -/
lemma Reached.passes {source : String} {cursor : Cursor} (reached : Reached source cursor) :
    ∃ passed, (Cursor.start source).Passes passed cursor := by
  induction reached with
  | start => exact ⟨[], .refl _⟩
  | next _ reads ih =>
    obtain ⟨passed, passes⟩ := ih
    obtain ⟨passed', passes', -⟩ := passes_of_next? reads
    exact ⟨_, passes.trans passes'⟩

/-- Every cursor that reading a source gets to can be relied on. -/
lemma Reached.steady {source : String} {cursor : Cursor} (reached : Reached source cursor) :
    Steady source cursor := by
  obtain ⟨passed, passes⟩ := reached.passes
  refine ⟨⟨passed, passes⟩, fun _ after passes' => (passes.trans passes').isValid,
    skipTrivia_passes _ _ _, fun result after reads => ?_, fun fault after reads => ?_⟩
  · obtain ⟨passed', passes', nonempty, -⟩ := passes_of_next? reads
    exact ⟨⟨passed', passes'⟩, passes'.lt nonempty⟩
  · obtain ⟨passed', passes', -, finished⟩ := passes_of_next? reads
    have empty := finished fault rfl
    refine ⟨(passes.trans passes').offset_eq_of_nil empty, ?_⟩
    obtain ⟨offset, text⟩ := after
    subst empty
    exact next?_lastComment .none offset

/-- Tokens that a cursor reads without an error are those of a split without a fault. -/
lemma split_of_tokens {offset : Nat} {text : List Char} {placed : List (Nat × Token)}
    (reads : Cursor.tokens ⟨offset, text⟩ = placed.map .ok) : Split offset text placed none := by
  obtain ⟨tokens, fault, split⟩ := exists_split offset text
  have same := reads.symm.trans (tokens_of_split split)
  cases fault with
  | none =>
    rw [Option.toList_none, List.map_nil, List.append_nil] at same
    rwa [(List.map_inj_right fun _ _ => Except.ok.inj).1 same]
  | some fault =>
    have fails : (.error fault : Except ReadError (Nat × Token)) ∈ placed.map .ok := by simp [same]
    obtain ⟨_, -, ok⟩ := List.mem_map.1 fails
    cases ok

/-- If a source is read without a fault, it consists of its tokens with blanks and comments before,
between and behind them, each token at the byte that it is said to start at. Whether there is a fault or
not, reading always moves on from one boundary of characters to another, and ends after a fault. -/
theorem tokens_lossless (source : String) :
    (∀ placed : List (Nat × Token), (start source).tokens = placed.map .ok →
      ∃ pieces gap comment, placed = pieces.map (fun piece => (piece.offset, piece.token)) ∧
        source.toList = Token.joined pieces ++ (gap ++ comment) ∧ Trivia gap ∧
          LastComment comment ∧ ∀ before piece behind, pieces = before ++ piece :: behind →
            piece.Fits (Token.joined before) (Token.joined behind ++ (gap ++ comment))) ∧
      ∀ cursor, Reached source cursor → Steady source cursor := by
  refine ⟨fun placed reads => ?_, fun cursor reached => reached.steady⟩
  obtain ⟨pieces, gap, comment, are, whole, trivia, last, fit⟩ :=
    (split_of_tokens reads).exists_pieces [] rfl (.inl nofun)
  exact ⟨pieces, gap, comment, are, whole, trivia, last, fit⟩

/-- The parenthesis in the comment is no token, and `é` takes two bytes. In the second text a cursor
stands before quotes that do not end. -/
theorem tokens_lossless_accent :
    (start "é ; (\n\"a\\n\"").tokens = [(0, .atom "é"), (7, .text "a\n")].map .ok ∧
      (∃ pieces gap comment,
        [(0, .atom "é"), (7, .text "a\n")] = pieces.map (fun piece => (piece.offset, piece.token)) ∧
          "é ; (\n\"a\\n\"".toList = Token.joined pieces ++ (gap ++ comment) ∧ Trivia gap ∧
            LastComment comment ∧ ∀ before piece behind, pieces = before ++ piece :: behind →
              piece.Fits (Token.joined before) (Token.joined behind ++ (gap ++ comment))) ∧
      (start "é\"ü").next? = some (.ok (0, .atom "é"), ⟨2, ['"', 'ü']⟩) ∧
      Steady "é\"ü" ⟨2, ['"', 'ü']⟩ := by
  have reads : (start "é ; (\n\"a\\n\"").tokens = [(0, .atom "é"), (7, .text "a\n")].map .ok := by
    with_unfolding_all rfl
  have next : (start "é\"ü").next? = some (.ok (0, .atom "é"), ⟨2, ['"', 'ü']⟩) := by
    with_unfolding_all rfl
  exact ⟨reads, (tokens_lossless _).1 _ reads, next, (tokens_lossless _).2 _ (.next .start next)⟩

end Cursor

end BlockPuzzle
