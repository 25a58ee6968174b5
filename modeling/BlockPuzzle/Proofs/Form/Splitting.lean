import BlockPuzzle.Proofs.Form.Lexing

/-!
# Splitting texts

Every text is split in just one way into tokens with the bytes that they start at, up to its end or to
a quoted text that cannot be read (`Split`, `exists_split`, `Split.unique`). A cursor reads the tokens of
the split, and then the fault if there is one: `Cursor.tokens_of_split`.
-/

namespace BlockPuzzle

open Text (byteLength byteLength_append byteLength_cons)

/-! ## Broken texts -/

/-- A quoted text cannot be read behind its opening quote at byte `quote`; what stands there starts at
byte `offset`. It does not end, not even behind a backslash, or a character is escaped that stands for
nothing then. -/
inductive Broken (quote offset : Nat) : List Char → ReadError → Prop where
  | unclosed {value written} :
    Quotes value written →
    Broken quote offset written (.unclosedText quote)
  | backslash {value written} :
    Quotes value written →
    Broken quote offset (written ++ ['\\']) (.unclosedText quote)
  | escape {value written c rest} :
    Quotes value written →
    Token.unescape? c = none →
    Broken quote offset (written ++ '\\' :: c :: rest)
      (.unknownEscape c (offset + byteLength written))

/-- A text from byte `offset` on is split into tokens, each with the byte that it starts at. An atom goes
on as long as it can. At a quoted text that cannot be read the split ends with this fault. -/
inductive Split : Nat → List Char → List (Nat × Token) → Option ReadError → Prop where
  | ending {offset gap comment} :
    Trivia gap →
    LastComment comment →
    Split offset (gap ++ comment) [] none
  | broken {offset gap text fault} :
    Trivia gap →
    Broken (offset + byteLength gap) (offset + byteLength gap + 1) text fault →
    Split offset (gap ++ '"' :: text) [] (some fault)
  | token {offset gap token lexeme text tokens fault} :
    Trivia gap →
    token.Lexeme lexeme →
    (token.isAtom = true → Cursor.Breaks text) →
    Split (offset + byteLength gap + byteLength lexeme) text tokens fault →
    Split offset (gap ++ (lexeme ++ text)) ((offset + byteLength gap, token) :: tokens) fault

namespace Broken

variable {quote offset : Nat} {text : List Char} {fault : ReadError}

/-- A text stays broken behind a character that stands for itself. -/
lemma plain {c : Char} (ne : c ≠ '"') (ne' : c ≠ '\\')
    (broken : Broken quote (offset + c.utf8Size) text fault) :
    Broken quote offset (c :: text) fault := by
  cases broken with
  | unclosed quotes => exact .unclosed (.plain ne ne' quotes)
  | backslash quotes =>
    rw [← List.cons_append]
    exact .backslash (.plain ne ne' quotes)
  | @escape value written d rest quotes nothing =>
    have behind := @escape quote offset _ (c :: written) d rest (.plain ne ne' quotes) nothing
    rwa [byteLength_cons, ← Nat.add_assoc] at behind

/-- So it does behind an escaped one. -/
lemma escaped {c d : Char} (stands : Token.unescape? d = some c)
    (broken : Broken quote (offset + '\\'.utf8Size + d.utf8Size) text fault) :
    Broken quote offset ('\\' :: d :: text) fault := by
  cases broken with
  | unclosed quotes => exact .unclosed (.escaped stands quotes)
  | backslash quotes =>
    rw [← List.cons_append, ← List.cons_append]
    exact .backslash (.escaped stands quotes)
  | @escape value written e rest quotes nothing =>
    have behind := @escape quote offset _ ('\\' :: d :: written) e rest (.escaped stands quotes) nothing
    rwa [byteLength_cons, byteLength_cons, ← Nat.add_assoc, ← Nat.add_assoc] at behind

end Broken

namespace Cursor

variable {quote offset : Nat} {text : List Char} {fault : ReadError}

/-- A broken text cannot be read, and its fault is found. -/
lemma scanText_of_broken (broken : Broken quote offset text fault) (read : List Char) :
    scanText quote offset read text = .error fault := by
  cases broken with
  | unclosed quotes =>
    have behind := scanText_append quotes quote offset read []
    rwa [List.append_nil, scanText] at behind
  | backslash quotes =>
    rw [scanText_append quotes, scanText]
    rfl
  | escape quotes nothing =>
    rw [scanText_append quotes, scanText, if_neg (by decide), if_pos (by decide), nothing]

/-- What cannot be read as a quoted text is broken. -/
lemma broken_of_scanText {read : List Char} (fails : scanText quote offset read text = .error fault) :
    Broken quote offset text fault := by
  fun_induction scanText quote offset read text with
  | case1 =>
    cases fails
    exact .unclosed .nil
  | case2 => cases fails
  | case3 offset read c closes =>
    cases fails
    by_cases backslash : c = '\\'
    · subst backslash
      exact @Broken.backslash _ _ _ [] .nil
    · exact .unclosed (.plain (fun e => closes (beq_iff_eq.2 e)) backslash .nil)
  | case4 => cases fails
  | case5 offset read c d cs _ backslash e stands ih =>
    obtain rfl := beq_iff_eq.1 backslash
    exact .escaped stands (ih fails)
  | case6 offset read c d cs _ backslash nothing =>
    cases fails
    rw [beq_iff_eq.1 backslash]
    exact @Broken.escape _ offset _ [] d cs .nil nothing
  | case7 offset read c d cs ne ne' ih =>
    exact .plain (fun e => ne (beq_iff_eq.2 e)) (fun e => ne' (beq_iff_eq.2 e)) (ih fails)

/-! ## Splits -/

/-- Behind a quoted text that cannot be read nothing is left. -/
lemma next?_of_broken (broken : Broken offset (offset + 1) text fault) :
    next? ⟨offset, '"' :: text⟩ =
      some (.error fault, ⟨offset + byteLength ('"' :: text), []⟩) := by
  have here := skipTrivia_significant ⟨'"', text, rfl, by decide, by decide⟩ offset
  unfold next?
  simp only [here, Char.reduceBEq, Bool.false_eq_true, if_false, if_true,
    scanText_of_broken broken]

/-- What cannot be read as a token of a significant text is a broken text. -/
lemma broken_of_next? {after : Cursor} (significant : Significant text)
    (fails : next? ⟨offset, text⟩ = some (.error fault, after)) :
    ∃ cs, text = '"' :: cs ∧ Broken offset (offset + 1) cs fault := by
  have here := skipTrivia_significant significant offset
  obtain ⟨c, cs, rfl, -, -⟩ := significant
  unfold next? at fails
  simp only [here] at fails
  by_cases opening : (c == '(') = true
  · rw [if_pos opening] at fails
    cases fails
  by_cases closing : (c == ')') = true
  · rw [if_neg opening, if_pos closing] at fails
    cases fails
  by_cases quote : (c == '"') = true
  · rw [if_neg opening, if_neg closing, if_pos quote] at fails
    cases scans : scanText offset (offset + 1) [] cs with
    | ok read =>
      rw [scans] at fails
      cases fails
    | error e =>
      rw [scans] at fails
      cases fails
      exact ⟨cs, by rw [beq_iff_eq.1 quote], broken_of_scanText scans⟩
  · rw [if_neg opening, if_neg closing, if_neg quote] at fails
    cases fails

/-- A cursor reads the tokens of a split, and then its fault. -/
lemma tokens_of_split {tokens : List (Nat × Token)} {fault : Option ReadError}
    (split : Split offset text tokens fault) :
    Cursor.tokens ⟨offset, text⟩ = tokens.map .ok ++ fault.toList.map .error := by
  induction split with
  | ending trivia last =>
    exact tokens_of_none ((next?_trivia trivia _ _).trans (next?_lastComment last _))
  | @broken offset gap text fault trivia broken =>
    have fails := (next?_trivia trivia offset _).trans (next?_of_broken broken)
    rw [tokens_of_some fails, tokens_of_none (next?_lastComment .none _)]
    rfl
  | @token offset gap token lexeme text tokens fault trivia is breaks _ ih =>
    have some := (next?_trivia trivia offset _).trans (next?_lexeme is breaks _)
    rw [tokens_of_some some, ih, List.map_cons, List.cons_append]

end Cursor

variable {offset : Nat} {text : List Char}

/-- Every text is split in some way: at each token that is read, and at one that cannot be. -/
lemma exists_split (offset : Nat) (text : List Char) :
    ∃ tokens fault, Split offset text tokens fault := by
  obtain ⟨gap, rest, rfl, trivia, last | significant⟩ := exists_trivia text
  · exact ⟨_, _, .ending trivia last⟩
  obtain ⟨⟨result, after⟩, next⟩ := Cursor.next?_significant significant (offset + byteLength gap)
  cases result with
  | error fault =>
    obtain ⟨cs, rfl, broken⟩ := Cursor.broken_of_next? significant next
    exact ⟨_, _, .broken trivia broken⟩
  | ok read =>
    have shorter : after.rest.length < rest.length := Cursor.length_next?_lt next
    obtain ⟨lexeme, is, rfl, breaks⟩ := Cursor.lexeme_of_next? significant next
    obtain ⟨tokens, fault, split⟩ :=
      exists_split (offset + byteLength gap + byteLength lexeme) after.rest
    exact ⟨_, _, .token trivia is breaks split⟩
termination_by text.length
decreasing_by
  subst_vars
  simp only [List.length_append] at shorter ⊢
  omega

/-- A text is split in one way only. -/
lemma Split.unique {tokens tokens' : List (Nat × Token)} {fault fault' : Option ReadError}
    (split : Split offset text tokens fault) (split' : Split offset text tokens' fault') :
    tokens = tokens' ∧ fault = fault' := by
  have same := (Cursor.tokens_of_split split).symm.trans (Cursor.tokens_of_split split')
  clear split split'
  induction tokens generalizing tokens' with
  | nil =>
    cases tokens' with
    | nil =>
      refine ⟨rfl, ?_⟩
      cases fault <;> cases fault' <;> cases same <;> rfl
    | cons token tokens' => cases fault <;> cases same
  | cons token tokens ih =>
    cases tokens' with
    | nil => cases fault' <;> cases same
    | cons token' tokens' =>
      obtain ⟨first, others⟩ := List.cons.inj same
      cases first
      obtain ⟨rfl, rfl⟩ := ih others
      exact ⟨rfl, rfl⟩

end BlockPuzzle
