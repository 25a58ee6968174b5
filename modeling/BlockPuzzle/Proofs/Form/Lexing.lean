import BlockPuzzle.Proofs.Form.Written

/-!
# Tokens of a text

A cursor reads the tokens of a text just if the text is a layout of them: `Cursor.reads_iff_layout`.
A token is read behind any trivia and up to where its lexeme ends (`Cursor.next?_lexeme`), and
whatever is read as a token is a lexeme of it (`Cursor.lexeme_of_next?`).
-/

namespace BlockPuzzle

/-! ## Bytes -/

namespace Text

/-- The bytes of two texts add up. -/
lemma byteLength_append (cs ds : List Char) :
    byteLength (cs ++ ds) = byteLength cs + byteLength ds := by
  have shift : ∀ n (ds : List Char),
      ds.foldl (fun n c => n + c.utf8Size) n = n + byteLength ds := by
    intro n ds
    unfold byteLength
    induction ds generalizing n with
    | nil => rfl
    | cons d ds ih =>
      rw [List.foldl_cons, List.foldl_cons, ih, ih (0 + _)]
      omega
  rw [← shift, byteLength, List.foldl_append]
  rfl

/-- The first character adds its bytes to those of the others. -/
lemma byteLength_cons (c : Char) (cs : List Char) :
    byteLength (c :: cs) = c.utf8Size + byteLength cs := by
  rw [← List.singleton_append, byteLength_append]
  simp [byteLength]

/-- The bytes of some characters are those of the string of them. -/
lemma byteLength_eq (cs : List Char) : byteLength cs = (String.ofList cs).utf8ByteSize := by
  induction cs with
  | nil => rfl
  | cons c cs ih => simp [byteLength_cons, ih]

/-- The bytes of the characters of a string are those of the string. -/
lemma byteLength_toList (text : String) : byteLength text.toList = text.utf8ByteSize := by
  rw [byteLength_eq, String.ofList_toList]

end Text

open Text (byteLength byteLength_append byteLength_cons)

/-! ## Trivia -/

/-- A text that begins with neither a blank nor a comment. -/
def Significant (text : List Char) : Prop :=
  ∃ c cs, text = c :: cs ∧ Text.isBlank c = false ∧ c ≠ ';'

/-- Every text is some trivia with a significant text behind it, or with nothing but a last
comment. -/
lemma exists_trivia (text : List Char) :
    ∃ gap rest, text = gap ++ rest ∧ Trivia gap ∧ (LastComment rest ∨ Significant rest) := by
  match text with
  | [] => exact ⟨[], [], rfl, .nil, .inl .none⟩
  | c :: cs =>
    by_cases blank : Text.isBlank c = true
    · obtain ⟨gap, rest, rfl, trivia, stops⟩ := exists_trivia cs
      exact ⟨c :: gap, rest, rfl, .blank blank trivia, stops⟩
    by_cases comment : c = ';'
    · subst comment
      by_cases ends : '\n' ∈ cs
      · obtain ⟨words, others, split, inside⟩ := List.eq_append_cons_of_mem ends
        have shorter : others.length < (';' :: cs).length := by
          rw [split]
          simp
          omega
        obtain ⟨gap, rest, rfl, trivia, stops⟩ := exists_trivia others
        refine ⟨_, rest, ?_, .comment inside trivia, stops⟩
        rw [split]
        simp
      · exact ⟨[], _, rfl, .nil, .inl (.some ends)⟩
    · exact ⟨[], _, rfl, .nil, .inr ⟨c, cs, rfl, eq_false_of_ne_true blank, comment⟩⟩
termination_by text.length

namespace Cursor

variable {offset : Nat} {text : List Char}

/-- A comment is skipped up to the end of its line. -/
lemma skipTrivia_comment {words : List Char} (inside : '\n' ∉ words) (offset : Nat)
    (text : List Char) :
    skipTrivia true offset (words ++ '\n' :: text) =
      skipTrivia false (offset + byteLength (words ++ ['\n'])) text := by
  induction words generalizing offset with
  | nil => rfl
  | cons c words ih =>
    obtain ⟨other, inside⟩ := not_or.1 (mt List.mem_cons.2 inside)
    have goes : (c != '\n') = true := bne_iff_ne.2 (Ne.symm other)
    rw [List.cons_append, skipTrivia, if_pos rfl, goes, ih inside, List.cons_append,
      byteLength_cons, Nat.add_assoc]

/-- Trivia is skipped, and skipping goes on behind it. -/
lemma skipTrivia_trivia {gap : List Char} (trivia : Trivia gap) (offset : Nat) (text : List Char) :
    skipTrivia false offset (gap ++ text) = skipTrivia false (offset + byteLength gap) text := by
  -- one constructor of the trivia after the other; a comment is skipped as a whole
  induction trivia generalizing offset with
  | nil => rfl
  | blank blank _ ih =>
    rw [List.cons_append, skipTrivia, if_neg Bool.false_ne_true, if_pos blank, ih,
      byteLength_cons, Nat.add_assoc]
  | @comment words gap inside _ ih =>
    have length : byteLength (';' :: words ++ '\n' :: gap) =
        ';'.utf8Size + (byteLength (words ++ ['\n']) + byteLength gap) := by
      rw [← byteLength_append, ← byteLength_cons]
      simp
    rw [List.append_assoc, List.cons_append, List.cons_append, skipTrivia,
      if_neg Bool.false_ne_true, if_neg (by decide), if_pos (by decide), skipTrivia_comment inside, ih,
      length, Nat.add_assoc, Nat.add_assoc]

/-- A comment in a line that does not end is skipped to the end of the text. -/
lemma rest_skipTrivia_lastComment (last : LastComment text) (offset : Nat) :
    (skipTrivia false offset text).rest = [] := by
  have inside : ∀ {words : List Char} offset, '\n' ∉ words →
      (skipTrivia true offset words).rest = [] := by
    intro words offset inside
    induction words generalizing offset with
    | nil => rfl
    | cons c words ih =>
      obtain ⟨other, inside⟩ := not_or.1 (mt List.mem_cons.2 inside)
      have goes : (c != '\n') = true := bne_iff_ne.2 (Ne.symm other)
      rw [skipTrivia, if_pos rfl, goes]
      exact ih _ inside
  cases last with
  | none => rfl
  | some words => exact inside _ words

/-- A cursor stops skipping before a significant text. -/
lemma skipTrivia_significant (significant : Significant text) (offset : Nat) :
    skipTrivia false offset text = ⟨offset, text⟩ := by
  obtain ⟨c, cs, rfl, blank, comment⟩ := significant
  rw [skipTrivia, if_neg Bool.false_ne_true, if_neg (ne_true_of_eq_false blank),
    if_neg fun e => comment (beq_iff_eq.1 e)]

/-- A token is read behind trivia as it would be without it, some bytes further on. -/
lemma next?_trivia {gap : List Char} (trivia : Trivia gap) (offset : Nat) (text : List Char) :
    next? ⟨offset, gap ++ text⟩ = next? ⟨offset + byteLength gap, text⟩ := by
  unfold next?
  rw [skipTrivia_trivia trivia]

/-- No token is read in the last comment. -/
lemma next?_lastComment (last : LastComment text) (offset : Nat) :
    next? ⟨offset, text⟩ = none := by
  unfold next?
  simp only [rest_skipTrivia_lastComment last]

/-- A significant text has a token, or one that cannot be read. -/
lemma next?_significant (significant : Significant text) (offset : Nat) :
    ∃ result, next? ⟨offset, text⟩ = some result := by
  have here := skipTrivia_significant significant offset
  obtain ⟨c, cs, rfl, -, -⟩ := significant
  unfold next?
  simp only [here]
  split
  · exact ⟨_, rfl⟩
  · split
    · exact ⟨_, rfl⟩
    · split
      · split
        · exact ⟨_, rfl⟩
        · exact ⟨_, rfl⟩
      · exact ⟨_, rfl⟩

/-! ## Quoted texts -/

/-- What is written inside a quoted text is taken in, and reading goes on behind it. -/
lemma scanText_append {value written : List Char} (quotes : Quotes value written)
    (quote offset : Nat) (read rest : List Char) :
    scanText quote offset read (written ++ rest) =
      scanText quote (offset + byteLength written) (value.reverse ++ read) rest := by
  induction quotes generalizing offset read with
  | nil => rfl
  | @plain c value written ne ne' _ ih =>
    have closes : ¬ (c == '"') = true := fun e => ne (beq_iff_eq.1 e)
    have escapes : ¬ (c == '\\') = true := fun e => ne' (beq_iff_eq.1 e)
    have step : scanText quote offset read (c :: (written ++ rest)) =
        scanText quote (offset + c.utf8Size) (c :: read) (written ++ rest) := by
      cases written ++ rest with
      | nil =>
        rw [scanText, scanText]
        exact if_neg closes
      | cons d cs => rw [scanText, if_neg closes, if_neg escapes]
    rw [List.cons_append, step, ih, byteLength_cons, Nat.add_assoc, List.reverse_cons,
      List.append_assoc, List.singleton_append]
  | @escaped c d value written stands _ ih =>
    rw [List.cons_append, List.cons_append, scanText, if_neg (by decide), if_pos (by decide),
      stands]
    simp only
    rw [ih, byteLength_cons, byteLength_cons, List.reverse_cons, List.append_assoc,
      List.singleton_append]
    simp only [Nat.add_assoc]

/-- A quoted text is read up to its closing quote. -/
lemma scanText_quotes {value written : List Char} (quotes : Quotes value written)
    (quote offset : Nat) (read rest : List Char) :
    scanText quote offset read (written ++ '"' :: rest) =
      .ok (String.ofList (read.reverse ++ value), ⟨offset + byteLength written + 1, rest⟩) := by
  rw [scanText_append quotes]
  cases rest <;> simp [scanText]

/-- What is read as a quoted text is one. -/
lemma quotes_of_scanText {quote offset : Nat} {read text : List Char} {value : String}
    {after : Cursor} (reads : scanText quote offset read text = .ok (value, after)) :
    ∃ inner written, value = String.ofList (read.reverse ++ inner) ∧ Quotes inner written ∧
      text = written ++ '"' :: after.rest := by
  fun_induction scanText quote offset read text with
  | case1 => cases reads
  | case2 offset read c closes =>
    cases reads
    exact ⟨[], [], by simp, .nil, by rw [beq_iff_eq.1 closes]; rfl⟩
  | case3 => cases reads
  | case4 offset read c d cs closes =>
    cases reads
    exact ⟨[], [], by simp, .nil, by rw [beq_iff_eq.1 closes]; rfl⟩
  | case5 offset read c d cs _ backslash e stands ih =>
    obtain ⟨inner, written, same, quotes, rfl⟩ := ih reads
    refine ⟨e :: inner, '\\' :: d :: written, ?_, .escaped stands quotes, ?_⟩
    · rw [same]
      simp
    · rw [beq_iff_eq.1 backslash]
      rfl
  | case6 => cases reads
  | case7 offset read c d cs ne ne' ih =>
    obtain ⟨inner, written, same, quotes, parts⟩ := ih reads
    refine ⟨c :: inner, c :: written, ?_, .plain ?_ ?_ quotes, ?_⟩
    · rw [same]
      simp
    · exact fun e => ne (beq_iff_eq.2 e)
    · exact fun e => ne' (beq_iff_eq.2 e)
    · rw [parts]
      rfl

/-! ## Tokens -/

/-- No atom goes on into a text. -/
def Breaks (text : List Char) : Prop :=
  ∀ c ∈ text.head?, Token.isAtomChar c = false

/-- An atom character is neither blank nor one of those with a meaning of their own. -/
lemma isAtomChar_iff {c : Char} : Token.isAtomChar c = true ↔
    Text.isBlank c = false ∧ c ≠ '(' ∧ c ≠ ')' ∧ c ≠ '"' ∧ c ≠ ';' := by
  unfold Token.isAtomChar
  simp only [Bool.not_eq_true', Bool.or_eq_false_iff, beq_eq_false_iff_ne, and_assoc]

/-- A blank is no atom character. -/
lemma isAtomChar_of_isBlank {c : Char} (blank : Text.isBlank c = true) :
    Token.isAtomChar c = false := by
  refine Bool.eq_false_iff.2 fun is => ?_
  cases blank.symm.trans (isAtomChar_iff.1 is).1

/-- A text that begins with a token is significant. -/
lemma significant_lexeme {token : Token} {lexeme : List Char} (is : token.Lexeme lexeme)
    (rest : List Char) : Significant (lexeme ++ rest) := by
  cases is with
  | opening => exact ⟨'(', _, rfl, by decide, by decide⟩
  | closing => exact ⟨')', _, rfl, by decide, by decide⟩
  | text => exact ⟨'"', _, rfl, by decide, by decide⟩
  | @atom name nonempty chars =>
    obtain ⟨c, cs, name⟩ := List.exists_cons_of_ne_nil (mt String.toList_eq_nil_iff.1 nonempty)
    rw [name] at chars ⊢
    obtain ⟨blank, -, -, -, comment⟩ := isAtomChar_iff.1 (chars c List.mem_cons_self)
    exact ⟨c, _, rfl, blank, comment⟩

/-- Where an atom goes on, no other one ends. -/
lemma not_breaks_lexeme {token : Token} {lexeme : List Char} (is : token.Lexeme lexeme)
    (atom : token.isAtom = true) (rest : List Char) : ¬ Breaks (lexeme ++ rest) := by
  intro breaks
  cases is with
  | @atom name nonempty chars =>
    obtain ⟨c, cs, name'⟩ := List.exists_cons_of_ne_nil (mt String.toList_eq_nil_iff.1 nonempty)
    have ends := breaks c (by simp [name'])
    rw [chars c (by simp [name'])] at ends
    cases ends
  | _ => cases atom

/-- A token is read up to where its lexeme ends, if no atom goes on there. -/
lemma next?_lexeme {token : Token} {lexeme : List Char} (is : token.Lexeme lexeme)
    (breaks : token.isAtom = true → Breaks text) (offset : Nat) :
    next? ⟨offset, lexeme ++ text⟩ =
      some (.ok (offset, token), ⟨offset + byteLength lexeme, text⟩) := by
  have here := skipTrivia_significant (significant_lexeme is text) offset
  unfold next?
  simp only [here]
  cases is with
  | opening => rfl
  | closing => rfl
  | @text value written quotes =>
    have read := scanText_quotes quotes offset (offset + 1) [] text
    rw [List.cons_append, List.cons_append, List.append_assoc, List.singleton_append]
    simp only [Char.reduceBEq, Bool.false_eq_true, if_false, if_true, read]
    have length : byteLength ('"' :: (written ++ ['"'])) = 1 + (byteLength written + 1) := by
      rw [byteLength_cons, byteLength_append]
      rfl
    rw [length, List.reverse_nil, List.nil_append, String.ofList_toList]
    simp only [Nat.add_assoc]
  | @atom name nonempty chars =>
    obtain ⟨c, cs, name'⟩ := List.exists_cons_of_ne_nil (mt String.toList_eq_nil_iff.1 nonempty)
    have breaks := breaks rfl
    rw [name'] at chars
    obtain ⟨first, others⟩ := List.forall_mem_cons.1 chars
    obtain ⟨-, opening, closing, quote, -⟩ := isAtomChar_iff.1 first
    -- the run of atom characters ends where the lexeme does
    have stops : text.takeWhile Token.isAtomChar = [] ∧ text.dropWhile Token.isAtomChar = text := by
      cases text with
      | nil => exact ⟨rfl, rfl⟩
      | cons d text =>
        have other := ne_true_of_eq_false (breaks d rfl)
        exact ⟨List.takeWhile_cons_of_neg other, List.dropWhile_cons_of_neg other⟩
    simp only [name', List.cons_append, beq_iff_eq, opening, closing, quote, if_false, scanAtom,
      List.takeWhile_append_of_pos others, List.dropWhile_append_of_pos others, stops,
      List.append_nil]
    rw [← name', String.ofList_toList]

/-- The longest run of atom characters is an atom, and does not go on behind it. -/
lemma lexeme_run {c : Char} (first : Token.isAtomChar c = true) (cs : List Char) :
    (Token.atom (String.ofList (c :: cs.takeWhile Token.isAtomChar))).Lexeme
        (c :: cs.takeWhile Token.isAtomChar) ∧
      Breaks (cs.dropWhile Token.isAtomChar) := by
  have name : (String.ofList (c :: cs.takeWhile Token.isAtomChar)).toList =
      c :: cs.takeWhile Token.isAtomChar := String.toList_ofList
  have chars : ∀ d ∈ c :: cs.takeWhile Token.isAtomChar, Token.isAtomChar d = true :=
    List.forall_mem_cons.2 ⟨first, fun d mem => List.all_eq_true.1 List.all_takeWhile d mem⟩
  constructor
  · rw [← name] at chars
    have lexeme := Token.Lexeme.atom (fun empty => by simp [empty] at name) chars
    rwa [name] at lexeme
  · intro d head
    have stops := List.head?_dropWhile_not Token.isAtomChar cs
    rw [head] at stops
    simpa using stops

/-- What is read as a token of a significant text is a lexeme of it. An atom does not go on behind
its lexeme. -/
lemma lexeme_of_next? {place : Nat} {token : Token} {after : Cursor}
    (significant : Significant text)
    (reads : next? ⟨offset, text⟩ = some (.ok (place, token), after)) :
    ∃ lexeme, token.Lexeme lexeme ∧ text = lexeme ++ after.rest ∧
      (token.isAtom = true → Breaks after.rest) := by
  have here := skipTrivia_significant significant offset
  obtain ⟨c, cs, rfl, blank, comment⟩ := significant
  unfold next? at reads
  simp only [here] at reads
  by_cases opening : c = '('
  · subst opening
    cases reads
    exact ⟨_, .opening, rfl, nofun⟩
  by_cases closing : c = ')'
  · subst closing
    cases reads
    exact ⟨_, .closing, rfl, nofun⟩
  by_cases quote : c = '"'
  · subst quote
    simp only [Char.reduceBEq, Bool.false_eq_true, if_false, if_true] at reads
    cases scans : scanText offset (offset + 1) [] cs with
    | error e =>
      rw [scans] at reads
      cases reads
    | ok read =>
      obtain ⟨value, after'⟩ := read
      rw [scans] at reads
      cases reads
      obtain ⟨inner, written, rfl, quotes, rfl⟩ := quotes_of_scanText scans
      refine ⟨'"' :: written ++ ['"'], .text ?_, by simp, nofun⟩
      rwa [List.reverse_nil, List.nil_append, String.toList_ofList]
  simp only [beq_iff_eq, opening, closing, quote, if_false, scanAtom] at reads
  cases reads
  have first : Token.isAtomChar c = true :=
    isAtomChar_iff.2 ⟨blank, opening, closing, quote, comment⟩
  obtain ⟨lexeme, breaks⟩ := lexeme_run first cs
  refine ⟨_, lexeme, ?_, fun _ => breaks⟩
  rw [List.cons_append, List.takeWhile_append_dropWhile]

/-! ## Layouts -/

/-- Where no token is left, none is listed. -/
lemma tokens_of_none {cursor : Cursor} (none : cursor.next? = none) : cursor.tokens = [] := by
  rw [Cursor.tokens]
  split
  · rfl
  · next some => cases none.symm.trans some

/-- The first token that is read is listed before those that are read behind it. -/
lemma tokens_of_some {cursor after : Cursor} {result : Except ReadError (Nat × Token)}
    (some : cursor.next? = some (result, after)) : cursor.tokens = result :: after.tokens := by
  rw [Cursor.tokens]
  split
  · next none => cases some.symm.trans none
  · next some' =>
    cases some.symm.trans some'
    rfl

/-- No atom goes on into a layout that may stand behind an atom. -/
lemma breaks_of_layout {tokens : List Token} (layout : Layout true tokens text) : Breaks text := by
  have trivia : ∀ {gap rest : List Char}, Trivia gap → gap ≠ [] → Breaks (gap ++ rest) := by
    rintro gap rest (_ | is | _) nonempty c head
    · exact absurd rfl nonempty
    · cases head
      exact isAtomChar_of_isBlank is
    · cases head
      decide
  cases layout with
  | @ending _ gap comment is last =>
    by_cases empty : gap = []
    · subst empty
      cases last with
      | none => exact nofun
      | some =>
        intro c head
        cases head
        decide
    · exact trivia is empty
  | @token _ gap token lexeme tokens text is apart lexemeIs _ =>
    by_cases empty : gap = []
    · subst empty
      -- without a gap the token is no atom, so it begins with a character of its own
      cases lexemeIs with
      | atom => exact absurd rfl (apart rfl rfl)
      | _ =>
        intro c head
        cases head
        decide
    · exact trivia is empty

/-- A cursor reads the tokens of a layout. -/
lemma tokens_of_layout {behind : Bool} {tokens : List Token}
    (layout : Layout behind tokens text) (offset : Nat) :
    ∃ placed : List (Nat × Token), placed.map Prod.snd = tokens ∧
      Cursor.tokens ⟨offset, text⟩ = placed.map .ok := by
  induction layout generalizing offset with
  | ending trivia last =>
    have none := (next?_trivia trivia offset _).trans (next?_lastComment last _)
    exact ⟨[], rfl, tokens_of_none none⟩
  | @token behind gap token lexeme tokens text trivia _ is rest ih =>
    have breaks : token.isAtom = true → Breaks text := fun atom => breaks_of_layout (atom ▸ rest)
    have some := (next?_trivia trivia offset _).trans (next?_lexeme is breaks _)
    obtain ⟨placed, are, reads⟩ := ih (offset + byteLength gap + byteLength lexeme)
    refine ⟨(offset + byteLength gap, token) :: placed, ?_, ?_⟩
    · rw [List.map_cons, are]
    · rw [tokens_of_some some, reads, List.map_cons]

/-- Tokens that a cursor reads without an error are laid out in the text. -/
lemma layout_of_tokens {behind : Bool} {cursor : Cursor} {placed : List (Nat × Token)}
    (reads : cursor.tokens = placed.map .ok) (breaks : behind = true → Breaks cursor.rest) :
    Layout behind (placed.map Prod.snd) cursor.rest := by
  induction placed generalizing cursor behind with
  | nil =>
    obtain ⟨offset, text⟩ := cursor
    obtain ⟨gap, rest, rfl, trivia, last | significant⟩ := exists_trivia text
    · exact .ending trivia last
    · obtain ⟨result, next⟩ := next?_significant significant (offset + byteLength gap)
      rw [tokens_of_some ((next?_trivia trivia offset rest).trans next)] at reads
      cases reads
  | cons read placed ih =>
    obtain ⟨offset, text⟩ := cursor
    obtain ⟨place, token⟩ := read
    cases next : next? ⟨offset, text⟩ with
    | none =>
      rw [tokens_of_none next] at reads
      cases reads
    | some result =>
      obtain ⟨result, after⟩ := result
      rw [tokens_of_some next, List.map_cons] at reads
      obtain ⟨same, others⟩ := List.cons.inj reads
      subst same
      obtain ⟨gap, rest, rfl, trivia, last | significant⟩ := exists_trivia text
      · rw [next?_trivia trivia, next?_lastComment last] at next
        cases next
      · rw [next?_trivia trivia] at next
        obtain ⟨lexeme, is, rfl, breaks'⟩ := lexeme_of_next? significant next
        refine .token trivia (fun atom atom' => ?_) is (ih others breaks')
        rintro rfl
        -- two atoms with nothing between them would be one
        exact not_breaks_lexeme is atom' _ (breaks atom)

/-- A cursor reads tokens just if the text ahead of it is a layout of them. -/
theorem reads_iff_layout (cursor : Cursor) (tokens : List Token) :
    (∃ placed : List (Nat × Token), placed.map Prod.snd = tokens ∧
      cursor.tokens = placed.map .ok) ↔ Layout false tokens cursor.rest := by
  constructor
  · rintro ⟨placed, rfl, reads⟩
    exact layout_of_tokens reads nofun
  · intro layout
    exact tokens_of_layout layout cursor.offset

end Cursor

end BlockPuzzle
