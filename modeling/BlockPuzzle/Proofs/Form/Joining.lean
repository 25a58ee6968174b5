import BlockPuzzle.Proofs.Form.Faults

/-!
# Joined texts

Behind a text that can be read, a text on a new line is read as it would be alone: the forms of both
follow each other, and what makes the second one unreadable makes the joined text unreadable, as many
bytes further on as stand in front of it: `Form.readAll_joined`. For this a split of the first text goes
on with the split of the second (`Split.joined`), also if the first ends in a comment, and whatever is
done with a text does not depend on the byte that it starts at (`Split.moved`, `Reading.steps_behind`).
-/

namespace BlockPuzzle

open Text (byteLength byteLength_append byteLength_cons)

/-! ## Errors and their bytes -/

namespace ReadError

/-- The byte that an error is found at. -/
def offset : ReadError → Nat
  | tooDeep offset | unbalanced offset | unclosedList offset | integerRange offset
  | unclosedText offset | unknownEscape _ offset => offset

/-- The words for an error, without the byte. -/
def words : ReadError → String
  | tooDeep _ => "lists nested too deeply"
  | unbalanced _ => "unbalanced ')'"
  | unclosedList _ => "unterminated list"
  | integerRange _ => "integer literal out of range"
  | unclosedText _ => "unterminated string literal"
  | unknownEscape escaped _ => "unknown escape \\" ++ String.singleton escaped

/-- The same error some bytes further on. -/
def moved (bytes : Nat) : ReadError → ReadError
  | tooDeep offset => tooDeep (bytes + offset)
  | unbalanced offset => unbalanced (bytes + offset)
  | unclosedList offset => unclosedList (bytes + offset)
  | integerRange offset => integerRange (bytes + offset)
  | unclosedText offset => unclosedText (bytes + offset)
  | unknownEscape escaped offset => unknownEscape escaped (bytes + offset)

/-- The message of an error is its words and its byte. -/
lemma message_eq (error : ReadError) :
    error.message = error.words ++ " at byte " ++ toString error.offset := by
  cases error <;> rfl

/-- Some bytes further on, an error has the same words. -/
@[simp] lemma words_moved (bytes : Nat) (error : ReadError) :
    (error.moved bytes).words = error.words := by
  cases error <;> rfl

/-- Some bytes further on, an error is found as many bytes further on. -/
@[simp] lemma offset_moved (bytes : Nat) (error : ReadError) :
    (error.moved bytes).offset = bytes + error.offset := by
  cases error <;> rfl

end ReadError

/-! ## Splits -/

/-- Trivia behind trivia is trivia. -/
lemma Trivia.append {gap gap' : List Char} (before : Trivia gap) (behind : Trivia gap') :
    Trivia (gap ++ gap') := by
  induction before with
  | nil => exact behind
  | blank blank _ ih => exact .blank blank ih
  | comment inside _ ih =>
    rw [List.append_assoc, List.cons_append]
    exact .comment inside ih

/-- A line that ends is trivia, even if it ends in a comment. -/
lemma LastComment.line {comment : List Char} (last : LastComment comment) :
    Trivia (comment ++ ['\n']) := by
  cases last with
  | none => exact .blank rfl .nil
  | some inside => exact .comment inside .nil

/-- A line that is added behind a text does not make an atom go on into it. -/
lemma Cursor.Breaks.append {text : List Char} (breaks : Breaks text) (second : List Char) :
    Breaks (text ++ '\n' :: second) := by
  intro c head
  cases text with
  | nil =>
    cases head
    decide
  | cons d text => exact breaks c head

namespace Split

variable {offset : Nat} {gap text first second : List Char} {tokens placed : List (Nat × Token)}
  {fault : Option ReadError}

/-- A text is split behind trivia as it would be without it. -/
lemma behind_trivia (trivia : Trivia gap)
    (split : Split (offset + byteLength gap) text tokens fault) :
    Split offset (gap ++ text) tokens fault := by
  generalize start : offset + byteLength gap = place at split
  cases split with
  | ending trivia' last =>
    rw [← List.append_assoc]
    exact .ending (trivia.append trivia') last
  | broken trivia' broken =>
    rw [← start, Nat.add_assoc, ← byteLength_append] at broken
    rw [← List.append_assoc]
    exact .broken (trivia.append trivia') broken
  | token trivia' is breaks rest =>
    rw [← start, Nat.add_assoc offset, ← byteLength_append] at rest ⊢
    rw [← List.append_assoc]
    exact .token (trivia.append trivia') is breaks rest

/-- Behind a text without a fault the tokens of the text on the next line follow. -/
lemma joined {place : Nat} (split : Split offset first placed none)
    (split' : Split place second tokens fault) (next : place = offset + byteLength first + 1) :
    Split offset (first ++ '\n' :: second) (placed ++ tokens) fault := by
  generalize legible : (none : Option ReadError) = fault' at split
  induction split with
  | @ending offset gap comment trivia last =>
    have line := trivia.append last.line
    rw [← List.append_assoc] at line
    have length : byteLength (gap ++ comment ++ ['\n']) = byteLength (gap ++ comment) + 1 :=
      byteLength_append _ _
    rw [List.append_cons]
    refine behind_trivia line ?_
    rwa [length, ← Nat.add_assoc, ← next]
  | broken => cases legible
  | @token offset gap token lexeme text placed fault' trivia is breaks _ ih =>
    rw [byteLength_append, byteLength_append, ← Nat.add_assoc, ← Nat.add_assoc] at next
    rw [List.append_assoc, List.append_assoc]
    exact .token trivia is (fun atom => (breaks atom).append second) (ih next legible)

end Split

/-- A broken text is broken as well some bytes further on. -/
lemma Broken.moved {quote offset : Nat} {text : List Char} {fault : ReadError} (bytes : Nat)
    (broken : Broken quote offset text fault) :
    Broken (bytes + quote) (bytes + offset) text (fault.moved bytes) := by
  cases broken with
  | unclosed quotes => exact .unclosed quotes
  | backslash quotes => exact .backslash quotes
  | escape quotes nothing =>
    rw [ReadError.moved, ← Nat.add_assoc]
    exact .escape quotes nothing

/-- A text is split the same way from any byte on. -/
lemma Split.moved {offset : Nat} {text : List Char} {tokens : List (Nat × Token)}
    {fault : Option ReadError} (bytes : Nat) (split : Split offset text tokens fault) :
    Split (bytes + offset) text (tokens.map (Prod.map (bytes + ·) id))
      (fault.map (ReadError.moved bytes)) := by
  induction split with
  | ending trivia last => exact .ending trivia last
  | broken trivia broken =>
    have broken := broken.moved bytes
    simp only [← Nat.add_assoc] at broken
    exact .broken trivia broken
  | token trivia is breaks _ ih =>
    rw [← Nat.add_assoc, ← Nat.add_assoc] at ih
    rw [List.map_cons, Prod.map_apply, ← Nat.add_assoc]
    exact .token trivia is breaks ih

/-! ## Reading behind other forms -/

/-- An atom is taken for the same form some bytes further on. -/
lemma Form.ofAtom_moved (bytes offset : Nat) (name : String) :
    ofAtom (bytes + offset) name = (ofAtom offset name).mapError (ReadError.moved bytes) := by
  unfold ofAtom
  split
  · rfl
  split
  · rfl
  split
  · simp only
    split <;> rfl
  · rfl

namespace Reading

variable (bytes : Nat) (before : List Form)

/-- The same reading some bytes further on, behind finished forms. -/
def behind (reading : Reading) : Reading where
  unclosed := reading.unclosed.map (Prod.map (bytes + ·) id)
  finished := reading.finished ++ before

/-- A form is added behind finished forms as it would be without them. -/
lemma add_behind (reading : Reading) (form : Form) :
    (reading.behind bytes before).add form = (reading.add form).behind bytes before := by
  obtain ⟨_ | ⟨list, outer⟩, finished⟩ := reading <;> rfl

/-- A token is taken in behind finished forms as it would be without them. -/
lemma step_behind (reading : Reading) (offset : Nat) (token : Token) :
    (reading.behind bytes before).step (bytes + offset) token =
      ((reading.step offset token).map (behind bytes before)).mapError (ReadError.moved bytes) := by
  cases token with
  | opening =>
    rw [step, step, behind, List.length_map]
    split <;> rfl
  | closing =>
    obtain ⟨_ | ⟨list, outer⟩, finished⟩ := reading
    · rfl
    · exact congrArg Except.ok (add_behind bytes before ⟨outer, finished⟩ _)
  | text value => exact congrArg Except.ok (add_behind bytes before reading _)
  | atom name =>
    rw [step, step, Form.ofAtom_moved]
    cases Form.ofAtom offset name with
    | error e => rfl
    | ok form => exact congrArg Except.ok (add_behind bytes before reading form)

/-- So are any number of tokens, with a fault behind them or without one. -/
lemma steps_behind (reading : Reading) (tokens : List (Nat × Token)) (fault : Option ReadError) :
    (reading.behind bytes before).steps ((tokens.map (Prod.map (bytes + ·) id)).map .ok ++
        (fault.map (ReadError.moved bytes)).toList.map .error) =
      ((reading.steps (tokens.map .ok ++ fault.toList.map .error)).map (behind bytes before)).mapError
        (ReadError.moved bytes) := by
  induction tokens generalizing reading with
  | nil => cases fault <;> rfl
  | cons read tokens ih =>
    obtain ⟨offset, token⟩ := read
    simp only [List.map_cons, List.cons_append, Prod.map_apply, id_eq, steps, step_behind]
    cases reading.step offset token with
    | error e => rfl
    | ok next => exact ih next

/-- Reading ends behind finished forms as it would without them, with these in front. -/
lemma finish_behind (reading : Reading) :
    (reading.behind bytes before).finish =
      (reading.finish.map (before.reverse ++ ·)).mapError (ReadError.moved bytes) := by
  obtain ⟨_ | ⟨list, outer⟩, finished⟩ := reading
  · exact congrArg Except.ok List.reverse_append
  · rfl

end Reading

namespace Form

variable {first : String} {forms : List Form}

/-- Behind a text that can be read, a text on a new line is read as it is alone. -/
lemma readAll_behind (reads : readAll first = .ok forms) (second : String) :
    readAll (first ++ "\n" ++ second) =
      ((readAll second).map (forms ++ ·)).mapError (ReadError.moved (first.utf8ByteSize + 1)) := by
  obtain ⟨placed, fault, split⟩ := exists_split 0 first.toList
  obtain ⟨sound, rfl, -⟩ := (readAll_ok_iff split).1 ⟨forms, reads⟩
  obtain ⟨tokens, fault, split'⟩ := exists_split 0 second.toList
  -- the first text leaves no list open, so reading starts afresh behind its forms
  obtain ⟨next, -, goes⟩ := Reading.steps_of_sound sound
  have fresh : next = Reading.empty.behind (first.utf8ByteSize + 1) forms.reverse := by
    rw [readAll_of_split split, goes] at reads
    obtain ⟨_ | ⟨list, outer⟩, finished⟩ := next
    · cases reads
      rw [List.reverse_reverse]
      rfl
    · cases reads
  have start : first.utf8ByteSize + 1 + 0 = 0 + byteLength first.toList + 1 := by
    rw [Text.byteLength_toList, Nat.add_zero, Nat.zero_add]
  have whole := split.joined (split'.moved (first.utf8ByteSize + 1)) start
  have text : (first ++ "\n" ++ second).toList = first.toList ++ '\n' :: second.toList := by
    simp
  rw [← text] at whole
  rw [readAll_of_split whole, readAll_of_split split', List.map_append, List.append_assoc, goes, fresh,
    Reading.steps_behind]
  cases Reading.empty.steps (tokens.map .ok ++ fault.toList.map .error) with
  | error e => rfl
  | ok reading =>
    have ends := Reading.finish_behind (first.utf8ByteSize + 1) forms.reverse reading
    rw [List.reverse_reverse] at ends
    exact ends

/-! ## Names -/

/-- A form gives a name to the script, as a symbol or as a quoted text. -/
inductive Titles (name : String) : Form → Prop where
  | symbol {rest} :
    Titles name (.list (.symbol "program" :: .symbol name :: rest))
  | text {rest} :
    Titles name (.list (.symbol "program" :: .text name :: rest))

/-- The name that is found in a form is the one that the form gives. -/
lemma scriptName?_eq_some_iff {form : Form} {name : String} :
    form.scriptName? = some name ↔ form.Titles name := by
  constructor
  · intro names
    unfold scriptName? at names
    split at names
    · next second rest =>
      cases second with
      | symbol =>
        cases names
        exact .symbol
      | text =>
        cases names
        exact .text
      | _ => cases names
    · cases names
  · rintro (_ | _) <;> rfl

/-- Some form gives a name to the script. -/
def Titled (forms : List Form) : Prop :=
  ∃ form ∈ forms, ∃ name, form.Titles name

/-- A name is found in some forms just if one of them gives a name. -/
lemma titled_iff : Titled forms ↔ (forms.findSome? scriptName?).isSome = true := by
  rw [List.findSome?_isSome_iff]
  simp only [Option.isSome_iff_exists, scriptName?_eq_some_iff, Titled]

/-- A text that can be read may be followed by any other one on a new line, even if it ends in a comment.
If the other one can be read, the forms of both follow each other, and the first of the two that gives a
name to the script decides it. If it cannot be read, neither can both together, for the same reason as
many bytes further on as the first text and the end of its line take. -/
theorem readAll_joined (reads : readAll first = .ok forms) (second : String) :
    (∀ forms', readAll second = .ok forms' →
      readAll (first ++ "\n" ++ second) = .ok (forms ++ forms') ∧
        (Titled forms → scriptName (forms ++ forms') = scriptName forms) ∧
        (¬ Titled forms → Titled forms' → scriptName (forms ++ forms') = scriptName forms') ∧
        (¬ Titled forms → ¬ Titled forms' → scriptName (forms ++ forms') = "anonymous")) ∧
      ∀ error, readAll second = .error error →
        let further := error.moved (first.utf8ByteSize + 1)
        readAll (first ++ "\n" ++ second) = .error further ∧
          further.offset = first.utf8ByteSize + 1 + error.offset ∧
          further.message = error.words ++ " at byte " ++ toString further.offset ∧
          error.message = error.words ++ " at byte " ++ toString error.offset := by
  rw [readAll_behind reads]
  constructor
  · intro forms' reads'
    rw [reads']
    refine ⟨rfl, ?_⟩
    simp only [titled_iff, scriptName, List.findSome?_append]
    cases forms.findSome? scriptName? <;> cases forms'.findSome? scriptName? <;> simp
  · intro error fails
    rw [fails]
    refine ⟨rfl, error.offset_moved _, ?_, error.message_eq⟩
    rw [ReadError.message_eq, ReadError.words_moved]

/-- The parenthesis in a comment at the end of the first text does not matter, and `ü` takes two bytes. -/
theorem readAll_joined_comment :
    readAll "(program \"Tür\") ; (" = .ok [.list [.symbol "program", .text "Tür"]] ∧
      (readAll ("(program \"Tür\") ; (" ++ "\n" ++ "(program b)") =
          .ok [.list [.symbol "program", .text "Tür"], .list [.symbol "program", .symbol "b"]] ∧
        scriptName [.list [.symbol "program", .text "Tür"], .list [.symbol "program", .symbol "b"]] =
          "Tür") ∧
      readAll ("(program \"Tür\") ; (" ++ "\n" ++ "(left) \"") = .error (.unclosedText 28) := by
  have reads : readAll "(program \"Tür\") ; (" = .ok [.list [.symbol "program", .text "Tür"]] := by
    with_unfolding_all rfl
  have reads' : readAll "(program b)" = .ok [.list [.symbol "program", .symbol "b"]] := by
    with_unfolding_all rfl
  have fails : readAll "(left) \"" = .error (.unclosedText 7) := by
    with_unfolding_all rfl
  have titled : Titled [.list [.symbol "program", .text "Tür"]] :=
    ⟨_, List.mem_singleton_self _, _, .text⟩
  obtain ⟨whole, named, -⟩ := (readAll_joined reads "(program b)").1 _ reads'
  obtain ⟨further, -⟩ := (readAll_joined reads "(left) \"").2 _ fails
  exact ⟨reads, ⟨whole, named titled⟩, further⟩

end Form

end BlockPuzzle
