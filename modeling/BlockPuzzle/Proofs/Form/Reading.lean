import Mathlib.Data.List.Induction
import BlockPuzzle.Proofs.Form.Lexing

/-!
# Forms of a text

Reading a text gives forms just if they can be written and the text writes them:
`Form.readAll_of_written` and `Form.written_of_readAll`. An atom is read as the form it spells, and
spells the form that is read from it (`Form.ofAtom_of_spells`, `Form.spells_of_ofAtom`). The tokens of
a form are taken in as that form, whatever lists are open around it (`Reading.steps_tokens`); and
whatever has been taken in makes up the tokens before it, with the lists that are still open
(`Reading.Taken`).
-/

namespace BlockPuzzle

/-! ## Digits -/

/-- A digit is the character of a number below ten. -/
lemma exists_digitChar {d : Char} (is : d.isDigit) : ∃ n < 10, d = Nat.digitChar n := by
  obtain ⟨low, high⟩ := Char.isDigit_iff_toNat.1 is
  have lt : d.toNat - 48 < 10 := by
    simp at low high
    omega
  refine ⟨_, lt, Char.toNat_inj.1 ?_⟩
  rw [Nat.toNat_digitChar_of_lt_ten lt]
  simp at low
  omega

/-- The digits of a number stand for it, with any zeros in front of them. -/
lemma digitsValue_toDigits (zeros n : Nat) :
    digitsValue (List.replicate zeros '0' ++ Nat.toDigits 10 n) = n := by
  change Nat.ofDigitChars 10 _ 0 = n
  induction zeros with
  | zero => exact Nat.ofDigitChars_toDigits (by decide) (by decide)
  | succ zeros ih =>
    rw [List.replicate_succ, List.cons_append, Nat.ofDigitChars_cons]
    exact ih

/-- One more digit makes ten times the value, and the digit. -/
lemma digitsValue_concat (digits : List Char) {n : Nat} (lt : n < 10) :
    digitsValue (digits ++ [n.digitChar]) = 10 * digitsValue digits + n := by
  change Nat.ofDigitChars 10 _ 0 = 10 * Nat.ofDigitChars 10 digits 0 + n
  rw [Nat.ofDigitChars_append, Nat.ofDigitChars_cons_digitChar_of_lt_ten lt]
  rfl

/-- Digits are those of the number they stand for, with zeros in front of them. -/
lemma exists_zeros {digits : List Char} (nonempty : digits ≠ []) (are : ∀ d ∈ digits, d.isDigit) :
    ∃ zeros, digits = List.replicate zeros '0' ++ Nat.toDigits 10 (digitsValue digits) := by
  -- the last digit is taken off, as the digits of a number are made
  induction digits using List.reverseRecOn with
  | nil => exact absurd rfl nonempty
  | append_singleton digits d ih =>
    obtain ⟨n, lt, rfl⟩ := exists_digitChar (are d (by simp))
    rw [digitsValue_concat digits lt]
    by_cases empty : digits = []
    · subst empty
      refine ⟨0, ?_⟩
      change [n.digitChar] = Nat.toDigits 10 (0 + n)
      rw [Nat.zero_add, Nat.toDigits_of_lt_base lt]
    obtain ⟨zeros, digitsAre⟩ := ih empty fun d mem => are d (List.mem_append_left _ mem)
    by_cases zero : digitsValue digits = 0
    · -- the digit of the zero in front becomes one more zero
      rw [zero] at digitsAre ⊢
      refine ⟨zeros + 1, ?_⟩
      rw [digitsAre, Nat.mul_zero, Nat.zero_add, Nat.toDigits_of_lt_base lt, List.replicate_succ']
      rfl
    · refine ⟨zeros, ?_⟩
      rw [← Nat.toDigits_append_toDigits (by decide) (Nat.pos_of_ne_zero zero) lt,
        Nat.toDigits_of_lt_base lt, ← List.append_assoc, ← digitsAre]

/-! ## Atoms -/

/-- A sign is split off in front of digits, and only a minus counts. -/
lemma splitSign_append {sign digits : List Char}
    (is : sign = [] ∨ sign = ['+'] ∨ sign = ['-']) (are : ∀ d ∈ digits, d.isDigit) :
    splitSign (sign ++ digits) = (decide (sign = ['-']), digits) := by
  rcases is with rfl | rfl | rfl
  · cases digits with
    | nil => rfl
    | cons d digits =>
      have digit := are d List.mem_cons_self
      rw [List.nil_append]
      unfold splitSign
      split
      · next same =>
        cases same
        exact absurd digit (by decide)
      · next same =>
        cases same
        exact absurd digit (by decide)
      · rfl
  · rfl
  · rfl

/-- Some sign, or none, stands in front of what is left when a sign is split off. -/
lemma exists_sign (name : List Char) :
    ∃ sign, (sign = [] ∨ sign = ['+'] ∨ sign = ['-']) ∧ name = sign ++ (splitSign name).2 ∧
      (splitSign name).1 = decide (sign = ['-']) := by
  unfold splitSign
  split
  · exact ⟨['-'], .inr (.inr rfl), rfl, rfl⟩
  · exact ⟨['+'], .inr (.inl rfl), rfl, rfl⟩
  · exact ⟨[], .inl rfl, rfl, rfl⟩

/-- A text is taken for a number just if it is numeric. -/
lemma isIntegerText_iff {name : List Char} : isIntegerText name = true ↔ Form.IsNumeric name := by
  unfold isIntegerText
  simp only [Bool.and_eq_true, Bool.not_eq_true', List.isEmpty_eq_false_iff, List.all_eq_true]
  constructor
  · rintro ⟨nonempty, are⟩
    obtain ⟨sign, is, parts, -⟩ := exists_sign name
    exact ⟨sign, _, parts, is, nonempty, are⟩
  · rintro ⟨sign, digits, rfl, is, nonempty, are⟩
    rw [splitSign_append is are]
    exact ⟨nonempty, are⟩

/-- A number fits just if a signed word of 64 bits holds it. -/
lemma fitsWord_iff {n : Int} :
    fitsWord n = true ↔ -9223372036854775808 ≤ n ∧ n ≤ 9223372036854775807 := by
  unfold fitsWord
  rw [Bool.and_eq_true, decide_eq_true_eq, decide_eq_true_eq]

namespace Form

/-- A signed number is read as the number it stands for. -/
lemma integerValue_of_isSign {n : Int} {sign : List Char} (is : IsSign n sign) (zeros : Nat) :
    IsNumeric (sign ++ (List.replicate zeros '0' ++ Nat.toDigits 10 n.natAbs)) ∧
      integerValue (sign ++ (List.replicate zeros '0' ++ Nat.toDigits 10 n.natAbs)) = n := by
  have signs : sign = [] ∨ sign = ['+'] ∨ sign = ['-'] := by
    cases is <;> simp
  have are : ∀ d ∈ List.replicate zeros '0' ++ Nat.toDigits 10 n.natAbs, d.isDigit := by
    intro d mem
    rcases List.mem_append.1 mem with mem | mem
    · rw [List.eq_of_mem_replicate mem]
      rfl
    · exact Nat.isDigit_of_mem_toDigits (by decide) (by decide) mem
  refine ⟨⟨sign, _, rfl, signs, by simp [Nat.toDigits_ne_nil], are⟩, ?_⟩
  unfold integerValue
  rw [splitSign_append signs are]
  simp only [digitsValue_toDigits]
  cases is with
  | none nonneg => exact Int.natAbs_of_nonneg nonneg
  | plus nonneg => exact Int.natAbs_of_nonneg nonneg
  | minus nonpos =>
    refine (congrArg Neg.neg (Int.ofNat_natAbs_of_nonpos nonpos)).trans ?_
    exact Int.neg_neg n

/-- A text that is taken for a number is read as one, if this fits. -/
lemma ofAtom_of_isNumeric {name : String} (numeric : IsNumeric name.toList) (offset : Nat) :
    ofAtom offset name =
      if fitsWord (integerValue name.toList) then .ok (.integer (integerValue name.toList))
      else .error (.integerRange offset) := by
  have number := isIntegerText_iff.2 numeric
  have other : ∀ word : String, isIntegerText word.toList = false → ¬ (name == word) = true := by
    intro word noNumber same
    rw [← beq_iff_eq.1 same, number] at noNumber
    cases noNumber
  rw [ofAtom, if_neg (other "true" (by decide)), if_neg (other "false" (by decide)), if_pos number]

/-- What an atom spells is read from it, if it can be written at all. -/
lemma ofAtom_of_spells {depth : Nat} {name : String} {form : Form} (spells : Spells name form)
    (printable : form.Printable depth) (offset : Nat) : ofAtom offset name = .ok form := by
  cases spells with
  | symbol =>
    cases printable with
    | symbol is =>
      rw [ofAtom, if_neg fun e => is.ne_true (beq_iff_eq.1 e),
        if_neg fun e => is.ne_false (beq_iff_eq.1 e), if_neg fun e => is.notNumeric
          (isIntegerText_iff.1 e)]
  | yes => rfl
  | no => rfl
  | @integer _ n sign zeros is chars =>
    cases printable with
    | integer low high =>
      obtain ⟨numeric, value⟩ := integerValue_of_isSign is zeros
      rw [← chars] at numeric value
      rw [ofAtom_of_isNumeric numeric, value, if_pos (fitsWord_iff.2 ⟨low, high⟩)]

/-- A numeric name spells its value. -/
lemma spells_of_isNumeric {name : String} (numeric : IsNumeric name.toList) :
    Spells name (.integer (integerValue name.toList)) := by
  obtain ⟨sign, digits, parts, is, nonempty, are⟩ := numeric
  obtain ⟨zeros, digitsAre⟩ := exists_zeros nonempty are
  have value : integerValue name.toList =
      if sign = ['-'] then -(digitsValue digits : Int) else digitsValue digits := by
    unfold integerValue
    rw [parts, splitSign_append is are]
    simp only [decide_eq_true_eq]
  refine @Spells.integer _ _ sign zeros ?_ ?_
  · rw [value]
    rcases is with rfl | rfl | rfl
    · exact .none (by simp)
    · exact .plus (by simp)
    · exact .minus (by simp)
  · have abs : (integerValue name.toList).natAbs = digitsValue digits := by
      rw [value]
      split <;> simp
    rw [abs, ← digitsAre, parts]

/-- What is read from an atom is spelled by it, and can be written. -/
lemma spells_of_ofAtom {offset : Nat} {name : String} {form : Form} (nonempty : name ≠ "")
    (chars : ∀ c ∈ name.toList, Token.isAtomChar c) (reads : ofAtom offset name = .ok form) :
    Spells name form ∧ ∀ depth, form.Printable depth := by
  unfold ofAtom at reads
  by_cases yes : name = "true"
  · rw [if_pos (beq_iff_eq.2 yes)] at reads
    cases reads
    subst yes
    exact ⟨.yes, fun _ => .boolean⟩
  rw [if_neg fun e => yes (beq_iff_eq.1 e)] at reads
  by_cases no : name = "false"
  · rw [if_pos (beq_iff_eq.2 no)] at reads
    cases reads
    subst no
    exact ⟨.no, fun _ => .boolean⟩
  rw [if_neg fun e => no (beq_iff_eq.1 e)] at reads
  by_cases number : isIntegerText name.toList = true
  · rw [if_pos number] at reads
    by_cases fits : fitsWord (integerValue name.toList) = true
    · simp only [fits, if_true] at reads
      cases reads
      obtain ⟨low, high⟩ := fitsWord_iff.1 fits
      exact ⟨spells_of_isNumeric (isIntegerText_iff.1 number), fun _ => .integer low high⟩
    · simp only [fits] at reads
      cases reads
  · rw [if_neg number] at reads
    cases reads
    exact ⟨.symbol, fun _ =>
      .symbol ⟨nonempty, chars, yes, no, fun numeric => number (isIntegerText_iff.2 numeric)⟩⟩

/-! ## Tokens -/

/-- The tokens of forms behind others are those of all of them. -/
lemma Tokens.append {forms forms' : List Form} {tokens tokens' : List Token}
    (before : Tokens forms tokens) (behind : Tokens forms' tokens') :
    Tokens (forms ++ forms') (tokens ++ tokens') := by
  induction before with
  | nil => exact behind
  | atom spells _ ih => exact .atom spells ih
  | text _ ih => exact .text ih
  | list inner _ _ ih =>
    rw [List.cons_append, List.cons_append, List.append_assoc]
    exact .list inner ih

end Form

namespace Reading

open Form (Tokens Printable Spells)

/-- A form that is added opens no list and closes none. -/
@[simp] lemma length_unclosed_add (reading : Reading) (form : Form) :
    (reading.add form).unclosed.length = reading.unclosed.length := by
  obtain ⟨_ | ⟨⟨offset, items⟩, outer⟩, finished⟩ := reading <;> rfl

/-- Forms are added to the innermost list that is open. -/
lemma foldl_add_unclosed (forms : List Form) (offset : Nat) (items : List Form)
    (outer : List (Nat × List Form)) (finished : List Form) :
    forms.foldl add ⟨(offset, items) :: outer, finished⟩ =
      ⟨(offset, forms.reverse ++ items) :: outer, finished⟩ := by
  induction forms generalizing items with
  | nil => rfl
  | cons form forms ih =>
    rw [List.foldl_cons, add, ih, List.reverse_cons, List.append_assoc]
    rfl

/-- Where no list is open, forms are finished as they are added. -/
lemma foldl_add_finished (forms finished : List Form) :
    forms.foldl add ⟨[], finished⟩ = ⟨[], forms.reverse ++ finished⟩ := by
  induction forms generalizing finished with
  | nil => rfl
  | cons form forms ih =>
    rw [List.foldl_cons, add, ih, List.reverse_cons, List.append_assoc]
    rfl

/-- The tokens of forms are taken in as these forms, if there is room for their lists. -/
lemma steps_tokens {forms : List Form} {tokens : List Token} (made : Tokens forms tokens)
    {placed : List (Nat × Token)} (are : placed.map Prod.snd = tokens) {reading : Reading}
    (room : ∀ form ∈ forms, form.Printable (maxNesting - reading.unclosed.length))
    (rest : List (Except ReadError (Nat × Token))) :
    reading.steps (placed.map .ok ++ rest) = (forms.foldl add reading).steps rest := by
  -- along the forms; what is open around them and what follows may be anything
  induction made generalizing placed reading rest with
  | nil =>
    rw [List.map_eq_nil_iff.1 are]
    rfl
  | @atom name form forms tokens spells _ ih =>
    obtain ⟨⟨offset, token⟩, placed, rfl, rfl, others⟩ := List.map_eq_cons_iff.1 are
    obtain ⟨printable, room⟩ := List.forall_mem_cons.1 room
    rw [List.map_cons, List.cons_append, steps, step, Form.ofAtom_of_spells spells printable]
    exact ih others (by simpa using room) rest
  | @text value forms tokens _ ih =>
    obtain ⟨⟨offset, token⟩, placed, rfl, rfl, others⟩ := List.map_eq_cons_iff.1 are
    obtain ⟨-, room⟩ := List.forall_mem_cons.1 room
    rw [List.map_cons, List.cons_append, steps, step]
    exact ih others (by simpa using room) rest
  | @list items forms inner tokens _ _ ihItems ih =>
    obtain ⟨⟨offset, token⟩, placed, rfl, rfl, others⟩ := List.map_eq_cons_iff.1 are
    obtain ⟨placedInner, placed, rfl, inside, others⟩ := List.map_eq_append_iff.1 others
    obtain ⟨⟨offset', token⟩, placed, rfl, rfl, behind⟩ := List.map_eq_cons_iff.1 others
    obtain ⟨printable, room⟩ := List.forall_mem_cons.1 room
    generalize depth : maxNesting - reading.unclosed.length = left at printable
    cases printable with
    | @list left _ printable =>
      -- the items are read one list deeper, where there is as much room as they need
      have opens : ¬ reading.unclosed.length ≥ maxNesting := by omega
      have deeper : maxNesting - (reading.unclosed.length + 1) = left := by omega
      rw [List.map_cons, List.cons_append, steps, step, if_neg opens]
      simp only [List.map_append, List.map_cons, List.append_assoc]
      rw [ihItems inside (by simpa [deeper] using printable), foldl_add_unclosed,
        List.cons_append, steps, step]
      simp only [List.append_nil, List.reverse_reverse]
      exact ih behind (by simpa using room) rest

/-- What has been taken in makes up the tokens so far: the finished forms, and the items of the open
lists behind their parentheses. All of it can be written. -/
inductive Taken : Reading → List Token → Prop where
  | finished {finished tokens} :
    Tokens finished.reverse tokens →
    (∀ form ∈ finished, form.Printable maxNesting) →
    Taken ⟨[], finished⟩ tokens
  | inside {offset items outer finished before inner} :
    Taken ⟨outer, finished⟩ before →
    outer.length < maxNesting →
    Tokens items.reverse inner →
    (∀ item ∈ items, item.Printable (maxNesting - (outer.length + 1))) →
    Taken ⟨(offset, items) :: outer, finished⟩ (before ++ .opening :: inner)

/-- The empty reading has taken in no tokens. -/
lemma Taken.empty : Taken .empty [] :=
  .finished .nil nofun

/-- One more form has been taken in. -/
lemma Taken.add {reading : Reading} {before tokens : List Token} {form : Form}
    (taken : Taken reading before) (made : Tokens [form] tokens)
    (printable : form.Printable (maxNesting - reading.unclosed.length)) :
    Taken (reading.add form) (before ++ tokens) := by
  cases taken with
  | finished are room =>
    refine .finished ?_ (List.forall_mem_cons.2 ⟨printable, room⟩)
    rw [List.reverse_cons]
    exact are.append made
  | inside outer opens are room =>
    rw [List.append_assoc, List.cons_append]
    refine .inside outer opens ?_ (List.forall_mem_cons.2 ⟨printable, room⟩)
    rw [List.reverse_cons]
    exact are.append made

/-- One more token has been taken in. -/
lemma Taken.step {reading next : Reading} {before : List Token} {offset : Nat} {token : Token}
    {lexeme : List Char} (taken : Taken reading before) (is : token.Lexeme lexeme)
    (steps : reading.step offset token = .ok next) : Taken next (before ++ [token]) := by
  cases token with
  | opening =>
    rw [Reading.step] at steps
    by_cases full : reading.unclosed.length ≥ maxNesting
    · rw [if_pos full] at steps
      cases steps
    · rw [if_neg full] at steps
      cases steps
      exact .inside taken (Nat.lt_of_not_le full) .nil (by simp)
  | closing =>
    cases taken with
    | finished => cases steps
    | @inside _ items outer finished before inner taken opens are room =>
      cases steps
      rw [List.append_assoc, List.cons_append]
      refine taken.add (.list are .nil) ?_
      have deeper : maxNesting - outer.length = maxNesting - (outer.length + 1) + 1 := by omega
      rw [deeper]
      exact .list (by simpa using room)
  | text value =>
    cases steps
    exact taken.add (.text .nil) .text
  | atom name =>
    cases is with
    | atom nonempty chars =>
      rw [Reading.step] at steps
      cases reads : Form.ofAtom offset name with
      | error e =>
        rw [reads] at steps
        cases steps
      | ok form =>
        rw [reads] at steps
        cases steps
        obtain ⟨spells, printable⟩ := Form.spells_of_ofAtom nonempty chars reads
        exact taken.add (.atom spells .nil) (printable _)

/-- A reading has taken in the tokens of all its steps. -/
lemma Taken.steps {reading next : Reading} {before : List Token} {placed : List (Nat × Token)}
    (taken : Taken reading before) (are : ∀ read ∈ placed, ∃ lexeme, read.2.Lexeme lexeme)
    (steps : reading.steps (placed.map .ok) = .ok next) :
    Taken next (before ++ placed.map Prod.snd) := by
  induction placed generalizing reading before with
  | nil =>
    cases steps
    simpa using taken
  | cons read placed ih =>
    obtain ⟨offset, token⟩ := read
    obtain ⟨⟨lexeme, is⟩, are⟩ := List.forall_mem_cons.1 are
    rw [List.map_cons, Reading.steps] at steps
    cases step : reading.step offset token with
    | error e =>
      rw [step] at steps
      cases steps
    | ok reading' =>
      rw [step] at steps
      have taken := ih (taken.step is step) are steps
      rwa [List.append_assoc] at taken

/-- Tokens are taken in only if all of them could be read. -/
lemma exists_placed {reading next : Reading} {results : List (Except ReadError (Nat × Token))}
    (steps : reading.steps results = .ok next) :
    ∃ placed : List (Nat × Token), results = placed.map .ok := by
  induction results generalizing reading with
  | nil => exact ⟨[], rfl⟩
  | cons result results ih =>
    cases result with
    | error e => cases steps
    | ok read =>
      obtain ⟨offset, token⟩ := read
      rw [Reading.steps] at steps
      cases step : reading.step offset token with
      | error e =>
        rw [step] at steps
        cases steps
      | ok reading' =>
        rw [step] at steps
        obtain ⟨placed, rfl⟩ := ih steps
        exact ⟨(offset, token) :: placed, rfl⟩

end Reading

/-- Every token of a layout has characters that make it. -/
lemma Layout.lexemes {behind : Bool} {tokens : List Token} {text : List Char}
    (layout : Layout behind tokens text) : ∀ token ∈ tokens, ∃ lexeme, token.Lexeme lexeme := by
  induction layout with
  | ending => exact nofun
  | token _ _ is _ ih => exact List.forall_mem_cons.2 ⟨⟨_, is⟩, ih⟩

namespace Form

/-- A text that writes forms is read as these forms. -/
lemma readAll_of_written {forms : List Form} {source : String}
    (printable : ∀ form ∈ forms, form.Printable maxNesting) (written : Written forms source.toList) :
    readAll source = .ok forms := by
  obtain ⟨tokens, made, layout⟩ := written
  obtain ⟨placed, are, reads⟩ := (Cursor.reads_iff_layout (Cursor.start source) tokens).2 layout
  have room : ∀ form ∈ forms, form.Printable (maxNesting - Reading.empty.unclosed.length) := printable
  have steps := Reading.steps_tokens made are room []
  rw [List.append_nil, ← reads, Reading.empty, Reading.foldl_add_finished, Reading.steps] at steps
  rw [readAll, Reading.run_eq_steps, Reading.empty, steps]
  simp [Reading.finish]

/-- A text that is read as forms writes them. -/
lemma written_of_readAll {forms : List Form} {source : String}
    (reads : readAll source = .ok forms) :
    (∀ form ∈ forms, form.Printable maxNesting) ∧ Written forms source.toList := by
  rw [readAll, Reading.run_eq_steps] at reads
  cases steps : Reading.empty.steps (Cursor.start source).tokens with
  | error e =>
    rw [steps] at reads
    cases reads
  | ok next =>
    simp only [steps] at reads
    obtain ⟨placed, tokens⟩ := Reading.exists_placed steps
    have layout := (Cursor.reads_iff_layout _ _).1 ⟨placed, rfl, tokens⟩
    have lexemes := layout.lexemes
    rw [tokens] at steps
    have taken := Reading.Taken.empty.steps (fun read mem => lexemes _ (List.mem_map_of_mem mem))
      steps
    rw [List.nil_append] at taken
    generalize placed.map Prod.snd = read at layout taken
    cases taken with
    | @finished finished _ made printable =>
      cases reads
      exact ⟨by simpa using printable, _, made, layout⟩
    | inside => cases reads

end Form

end BlockPuzzle
