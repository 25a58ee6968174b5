import BlockPuzzle.Proofs.Form.Reading

/-!
# Reading undoes writing

A text is read as forms just if the forms can be written and the text writes them. Every list of forms
that can be written is written by some text, so forms that have been read are read again from any text
that writes them: `Form.readAll_iff_written`.
-/

namespace BlockPuzzle

namespace Token

/-- A text between quotes may be written with its quotes and backslashes escaped. -/
lemma quotes_escape (value : List Char) : Quotes value (value.flatMap escape) := by
  induction value with
  | nil => exact .nil
  | cons c value ih =>
    rw [List.flatMap_cons, escape]
    by_cases special : c = '"' ∨ c = '\\'
    · rw [if_pos special]
      refine .escaped ?_ ih
      rcases special with rfl | rfl <;> rfl
    · rw [if_neg special]
      obtain ⟨quote, backslash⟩ := not_or.1 special
      exact .plain quote backslash ih

/-- If a token can be made of characters, it is made of those that are written for it. -/
lemma lexeme_write {token : Token} {lexeme : List Char} (is : token.Lexeme lexeme) :
    token.Lexeme token.write := by
  cases is with
  | opening => exact .opening
  | closing => exact .closing
  | text => exact .text (quotes_escape _)
  | atom nonempty chars => exact .atom nonempty chars

/-- Tokens with a blank in front of each are a layout. -/
lemma layout_write {behind : Bool} {tokens : List Token}
    (lexemes : ∀ token ∈ tokens, token.Lexeme token.write) :
    Layout behind tokens (tokens.flatMap fun token => ' ' :: token.write) := by
  induction tokens generalizing behind with
  | nil => exact .ending .nil .none
  | cons token tokens ih =>
    obtain ⟨is, lexemes⟩ := List.forall_mem_cons.1 lexemes
    exact .token (.blank (by decide) .nil) (fun _ _ => List.cons_ne_nil _ _) is (ih lexemes)

end Token

namespace Form

/-- A numeral spells its number. -/
lemma spells_numeral (n : Int) : Spells (numeral n) (.integer n) := by
  unfold numeral
  by_cases negative : n < 0
  · exact @Spells.integer _ n ['-'] 0 (.minus (Int.le_of_lt negative)) (by simp [negative])
  · exact @Spells.integer _ n [] 0 (.none (Int.not_lt.1 negative)) (by simp [negative])

mutual

/-- A form is made of its tokens. -/
theorem made_tokens : ∀ form : Form, Tokens [form] form.tokens
  | symbol _ => .atom .symbol .nil
  | text _ => .text .nil
  | integer n => .atom (spells_numeral n) .nil
  | boolean true => .atom .yes .nil
  | boolean false => .atom .no .nil
  | list items => .list (made_tokensOf items) .nil

/-- So are forms one after another. -/
theorem made_tokensOf : ∀ forms : List Form, Tokens forms (tokensOf forms)
  | [] => .nil
  | form :: forms => (made_tokens form).append (made_tokensOf forms)

end

/-- What spells a printable form can stand in a text as an atom. -/
lemma lexeme_of_spells {depth : Nat} {name : String} {form : Form} (spells : Spells name form)
    (printable : form.Printable depth) : (Token.atom name).Lexeme name.toList := by
  have digit : ∀ {d : Char}, d.isDigit → Token.isAtomChar d := by
    intro d is
    obtain ⟨n, lt, rfl⟩ := exists_digitChar is
    have all : ∀ n < 10, Token.isAtomChar (Nat.digitChar n) := by decide
    exact all n lt
  cases spells with
  | symbol =>
    cases printable with
    | symbol is => exact .atom is.nonempty is.chars
  | yes => exact .atom (by decide) (List.all_eq_true.1 rfl)
  | no => exact .atom (by decide) (List.all_eq_true.1 rfl)
  | @integer _ n sign zeros is chars =>
    obtain ⟨⟨sign, digits, parts, signs, nonempty, are⟩, -⟩ := integerValue_of_isSign is zeros
    rw [← chars] at parts
    refine .atom ?_ fun c mem => ?_
    · rintro rfl
      simp [nonempty] at parts
    · rw [parts] at mem
      rcases List.mem_append.1 mem with mem | mem
      · rcases signs with rfl | rfl | rfl
        · cases mem
        · rw [List.mem_singleton.1 mem]
          decide
        · rw [List.mem_singleton.1 mem]
          decide
      · exact digit (are c mem)

/-- Every token of printable forms has characters that make it. -/
lemma Tokens.lexemes {forms : List Form} {tokens : List Token} (made : Tokens forms tokens)
    {depth : Nat} (printable : ∀ form ∈ forms, form.Printable depth) :
    ∀ token ∈ tokens, ∃ lexeme, token.Lexeme lexeme := by
  induction made generalizing depth with
  | nil => exact nofun
  | atom spells _ ih =>
    obtain ⟨first, others⟩ := List.forall_mem_cons.1 printable
    exact List.forall_mem_cons.2 ⟨⟨_, lexeme_of_spells spells first⟩, ih others⟩
  | text _ ih =>
    obtain ⟨-, others⟩ := List.forall_mem_cons.1 printable
    exact List.forall_mem_cons.2 ⟨⟨_, .text (Token.quotes_escape _)⟩, ih others⟩
  | list _ _ ihItems ih =>
    obtain ⟨first, others⟩ := List.forall_mem_cons.1 printable
    cases first with
    | list items =>
      have behind := List.forall_mem_cons.2 ⟨⟨_, .closing⟩, ih others⟩
      exact List.forall_mem_cons.2 ⟨⟨_, .opening⟩, List.forall_mem_append.2 ⟨ihItems items, behind⟩⟩

/-- Forms that can be written are written. -/
lemma written_write {depth : Nat} {forms : List Form}
    (printable : ∀ form ∈ forms, form.Printable depth) : Written forms (write forms).toList := by
  have made := made_tokensOf forms
  have lexemes : ∀ token ∈ tokensOf forms, token.Lexeme token.write := by
    intro token mem
    obtain ⟨lexeme, is⟩ := made.lexemes printable token mem
    exact Token.lexeme_write is
  rw [write, String.toList_ofList]
  exact ⟨_, made, Token.layout_write lexemes⟩

/-- Reading undoes writing. A text is read as forms just if these can be written and it is one of the
texts that write them; there is such a text; and what has been read is read again when it is
written. -/
theorem readAll_iff_written (forms : List Form) :
    (∀ source, readAll source = .ok forms ↔
      (∀ form ∈ forms, form.Printable 256) ∧ Written forms source.toList) ∧
    ((∀ form ∈ forms, form.Printable 256) → Written forms (write forms).toList) ∧
    ∀ source, readAll source = .ok forms → readAll (write forms) = .ok forms := by
  refine ⟨fun source => ⟨written_of_readAll, fun ⟨printable, written⟩ => ?_⟩, written_write,
    fun source reads => ?_⟩
  · exact readAll_of_written printable written
  · obtain ⟨printable, -⟩ := written_of_readAll reads
    exact readAll_of_written printable (written_write printable)

/-- A comment may stand between two atoms, a number may have zeros in front of it, and a quoted text
needs nothing around it. -/
theorem readAll_iff_written_comment :
    readAll "(turn;left\n+090\"\\\"\")" = .ok [.list [.symbol "turn", .integer 90, .text "\""]] := by
  refine ((readAll_iff_written _).1 _).2 ⟨?_, [.opening, .atom "turn", .atom "+090", .text "\"",
    .closing], ?_, ?_⟩
  · have turn : IsSymbolName "turn" :=
      ⟨by decide, List.all_eq_true.1 rfl, by decide, by decide, mt isIntegerText_iff.2 (by decide)⟩
    have items : ∀ item ∈ [.symbol "turn", .integer 90, .text "\""], Printable 255 item := by
      simpa using ⟨.symbol turn, .integer (by decide) (by decide), .text⟩
    exact List.forall_mem_singleton.2 (.list items)
  · exact .list (.atom .symbol (.atom (@Spells.integer _ 90 ['+'] 1 (.plus (by decide)) rfl)
      (.text .nil))) .nil
  · have quote : Token.Lexeme (.text "\"") ('"' :: ['\\', '"'] ++ ['"']) := .text (.escaped rfl .nil)
    have comment : Trivia (';' :: ['l', 'e', 'f', 't'] ++ '\n' :: []) := .comment (by decide) .nil
    have behind : Layout false [.closing] _ := .token .nil nofun .closing (.ending .nil .none)
    have behind : Layout true [.text "\"", .closing] _ := .token .nil nofun quote behind
    have behind : Layout true [.atom "+090", .text "\"", .closing] _ :=
      .token comment (fun _ _ => List.cons_ne_nil _ _) (.atom (by decide) (List.all_eq_true.1 rfl))
        behind
    have behind : Layout false [.atom "turn", .atom "+090", .text "\"", .closing] _ :=
      .token .nil nofun (.atom (by decide) (List.all_eq_true.1 rfl)) behind
    have behind : Layout false (.opening :: _) _ := .token .nil nofun .opening behind
    exact behind

end Form

end BlockPuzzle
