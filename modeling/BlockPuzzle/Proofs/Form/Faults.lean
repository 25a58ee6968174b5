import BlockPuzzle.Proofs.Form.Reading
import BlockPuzzle.Proofs.Form.Splitting

/-!
# Faults of a text

A text can be read just if its quoted texts can be, its numbers fit, and its parentheses match and are
not nested too deep (`Form.Accepted`). If not, the first token that breaks a rule is to blame, then a
quoted text that cannot be read, and then the innermost list that is not closed (`Form.Blamed`):
`Form.readAll_blames`.
-/

namespace BlockPuzzle

namespace Form

/-! ## Rules for tokens -/

/-- A name stands for a whole number that does not fit a signed word of 64 bits. -/
def Overflows (name : String) : Prop :=
  ∃ n, Spells name (.integer n) ∧ ¬ (-9223372036854775808 ≤ n ∧ n ≤ 9223372036854775807)

/-- Nothing is wrong with tokens as far as they go: no beginning of them closes more lists than it opens,
or has more than 256 lists open, and every whole number fits. -/
structure Sound (tokens : List Token) : Prop where
  closes : ∀ before, before <+: tokens → before.count .closing ≤ before.count .opening
  nests : ∀ before, before <+: tokens → before.count .opening ≤ before.count .closing + 256
  fits : ∀ name, .atom name ∈ tokens → ¬ Overflows name

/-- A token at byte `offset` breaks a rule behind the tokens before it, and is to blame for an error. -/
inductive Offends (before : List Token) (offset : Nat) : Token → ReadError → Prop where
  | unbalanced :
    before.count .opening ≤ before.count .closing →
    Offends before offset .closing (.unbalanced offset)
  | tooDeep :
    before.count .closing + 256 ≤ before.count .opening →
    Offends before offset .opening (.tooDeep offset)
  | overflow {name} :
    Overflows name →
    Offends before offset (.atom name) (.integerRange offset)

/-- Every list that is opened among tokens is closed among them, and no other one. -/
structure Balanced (tokens : List Token) : Prop where
  closes : ∀ before, before <+: tokens → before.count .closing ≤ before.count .opening
  even : tokens.count .closing = tokens.count .opening

/-- The innermost list that is not closed was opened at byte `offset`. -/
def Innermost (tokens : List (Nat × Token)) (offset : Nat) : Prop :=
  ∃ before behind, tokens = before ++ (offset, .opening) :: behind ∧ Balanced (behind.map Prod.snd)

/-- A text that is split into tokens can be read: nothing is wrong with them, no quoted text is broken,
and no list is open at the end. -/
structure Accepted (tokens : List (Nat × Token)) (fault : Option ReadError) : Prop where
  sound : Sound (tokens.map Prod.snd)
  legible : fault = none
  closed : (tokens.map Prod.snd).count .opening = (tokens.map Prod.snd).count .closing

/-- What is to blame for an error: the first token that breaks a rule; if there is none, a quoted text
that cannot be read; and if all tokens can be read, the innermost list that is not closed. -/
inductive Blamed (tokens : List (Nat × Token)) (fault : Option ReadError) : ReadError → Prop where
  | token {before offset token behind error} :
    tokens = before ++ (offset, token) :: behind →
    Sound (before.map Prod.snd) →
    Offends (before.map Prod.snd) offset token error →
    Blamed tokens fault error
  | text {error} :
    Sound (tokens.map Prod.snd) →
    fault = some error →
    Blamed tokens fault error
  | list {offset} :
    Sound (tokens.map Prod.snd) →
    fault = none →
    Innermost tokens offset →
    Blamed tokens fault (.unclosedList offset)

variable {tokens before : List Token} {token : Token} {offset : Nat} {error : ReadError}

/-- Nothing is wrong with no tokens. -/
lemma Sound.nil : Sound [] := by
  refine ⟨fun before is => ?_, fun before is => ?_, nofun⟩
  · rw [List.prefix_nil.1 is]
    decide
  · rw [List.prefix_nil.1 is]
    decide

/-- One more token leaves tokens sound just if it breaks no rule. -/
lemma sound_concat_iff (offset : Nat) : Sound (tokens ++ [token]) ↔
    Sound tokens ∧ ∀ error, ¬ Offends tokens offset token error := by
  constructor
  · rintro ⟨closes, nests, fits⟩
    have longer : ∀ before, before <+: tokens → before <+: tokens ++ [token] := fun before is =>
      is.trans (List.prefix_append _ _)
    refine ⟨⟨fun before is => closes before (longer before is), fun before is =>
      nests before (longer before is), fun name mem => fits name (List.mem_append_left _ mem)⟩, ?_⟩
    rintro error (full | full | overflows)
    · have few := closes _ List.prefix_rfl
      simp at few
      omega
    · have few := nests _ List.prefix_rfl
      simp at few
      omega
    · exact fits _ (by simp) overflows
  · rintro ⟨⟨closes, nests, fits⟩, fine⟩
    refine ⟨fun before is => ?_, fun before is => ?_, fun name mem => ?_⟩
    · rcases List.prefix_concat_iff.1 is with rfl | is
      · have few := closes _ List.prefix_rfl
        cases token with
        | closing =>
          have room := fun full => fine _ (.unbalanced full)
          simp at room ⊢
          omega
        | _ =>
          simp
          omega
      · exact closes before is
    · rcases List.prefix_concat_iff.1 is with rfl | is
      · have few := nests _ List.prefix_rfl
        cases token with
        | opening =>
          have room := fun full => fine _ (.tooDeep full)
          simp at room ⊢
          omega
        | _ =>
          simp
          omega
      · exact nests before is
    · rcases List.mem_append.1 mem with mem | mem
      · exact fits name mem
      · rw [← List.mem_singleton.1 mem] at fine
        exact fun overflows => fine _ (.overflow overflows)

/-- Nothing is wrong with tokens, or one of them is the first that breaks a rule. -/
lemma sound_or_offends (tokens : List (Nat × Token)) :
    Sound (tokens.map Prod.snd) ∨
      ∃ before offset token behind error, tokens = before ++ (offset, token) :: behind ∧
        Sound (before.map Prod.snd) ∧ Offends (before.map Prod.snd) offset token error := by
  induction tokens using List.reverseRecOn with
  | nil => exact .inl .nil
  | append_singleton tokens last ih =>
    obtain ⟨offset, token⟩ := last
    rcases ih with sound | ⟨before, offset', token', behind, error, rfl, first⟩
    · by_cases offends : ∃ error, Offends (tokens.map Prod.snd) offset token error
      · obtain ⟨error, offends⟩ := offends
        exact .inr ⟨tokens, offset, token, [], error, rfl, sound, offends⟩
      · refine .inl ?_
        rw [List.map_append]
        exact (sound_concat_iff offset).2 ⟨sound, not_exists.1 offends⟩
    · refine .inr ⟨before, offset', token', behind ++ [(offset, token)], error, ?_, first⟩
      rw [List.append_assoc, List.cons_append]

/-! ## Matching parentheses -/

/-- No tokens are balanced. -/
lemma Balanced.nil : Balanced [] :=
  ⟨Sound.nil.closes, rfl⟩

/-- Balanced tokens behind balanced ones are balanced. -/
lemma Balanced.append (first : Balanced tokens) (second : Balanced before) :
    Balanced (tokens ++ before) := by
  refine ⟨fun start is => ?_, ?_⟩
  · rcases List.prefix_or_prefix_of_prefix is (List.prefix_append _ _) with is | ⟨rest, rfl⟩
    · exact first.closes start is
    · have few := second.closes rest ((List.prefix_append_right_inj _).1 is)
      have even := first.even
      simp only [List.count_append]
      omega
  · rw [List.count_append, List.count_append, first.even, second.even]

/-- A list around balanced tokens is balanced. -/
lemma Balanced.list (inner : Balanced tokens) : Balanced (.opening :: tokens ++ [.closing]) := by
  have even := inner.even
  refine ⟨fun start is => ?_, ?_⟩
  · rcases List.prefix_concat_iff.1 is with rfl | is
    · simp
      omega
    · rcases List.prefix_cons_iff.1 is with rfl | ⟨rest, rfl, inside⟩
      · simp
      · have few := inner.closes rest inside
        simp
        omega
  · simp
    omega

/-- A token that is no parenthesis is balanced. -/
lemma Balanced.single (opening : token ≠ .opening) (closing : token ≠ .closing) :
    Balanced [token] := by
  refine ⟨fun start is => ?_, ?_⟩
  · rcases List.prefix_cons_iff.1 is with rfl | ⟨rest, rfl, inside⟩
    · simp
    · simp [List.prefix_nil.1 inside, closing]
  · simp [opening, closing]

/-- The lists that are opened and not closed, innermost first, were opened at these bytes. -/
inductive Unclosed : List Nat → List (Nat × Token) → Prop where
  | none {placed} :
    Balanced (placed.map Prod.snd) →
    Unclosed [] placed
  | list {opened outer before behind} :
    Unclosed outer before →
    Balanced (behind.map Prod.snd) →
    Unclosed (opened :: outer) (before ++ (opened, .opening) :: behind)

namespace Unclosed

variable {outer : List Nat} {placed behind : List (Nat × Token)}

/-- Balanced tokens leave the lists open that were open before. -/
lemma append (unclosed : Unclosed outer placed) (balanced : Balanced (behind.map Prod.snd)) :
    Unclosed outer (placed ++ behind) := by
  cases unclosed with
  | none first =>
    refine .none ?_
    rw [List.map_append]
    exact first.append balanced
  | list before first =>
    rw [List.append_assoc, List.cons_append]
    refine .list before ?_
    rw [List.map_append]
    exact first.append balanced

/-- As many lists are open as more are opened than closed. -/
lemma count (unclosed : Unclosed outer placed) :
    (placed.map Prod.snd).count .opening = (placed.map Prod.snd).count .closing + outer.length := by
  induction unclosed with
  | none balanced =>
    rw [balanced.even]
    rfl
  | list _ balanced ih =>
    have even := balanced.even
    simp
    omega

/-- A closing parenthesis closes the innermost list. -/
lemma close (unclosed : Unclosed (offset :: outer) placed) (here : Nat) :
    Unclosed outer (placed ++ [(here, .closing)]) := by
  cases unclosed with
  | @list _ _ before behind outside balanced =>
    rw [List.append_assoc]
    refine outside.append ?_
    have list := balanced.list
    simpa using list

end Unclosed

/-- Only one list is the innermost that is not closed. -/
lemma Innermost.unique {placed : List (Nat × Token)} {opened opened' : Nat}
    (innermost : Innermost placed opened) (innermost' : Innermost placed opened') :
    opened = opened' := by
  -- a list that is opened further behind would have to be closed by more than it opens
  have apart : ∀ {p : Nat} {between behind : List (Nat × Token)},
      Balanced ((between ++ (p, .opening) :: behind).map Prod.snd) →
      Balanced (behind.map Prod.snd) → False := by
    intro p between behind outside inside
    have few := outside.closes (between.map Prod.snd) (by simp)
    have even := outside.even
    have even' := inside.even
    simp at even
    omega
  obtain ⟨before, behind, rfl, balanced⟩ := innermost
  obtain ⟨before', behind', same, balanced'⟩ := innermost'
  rcases List.append_eq_append_iff.1 same with ⟨between, rfl, rest⟩ | ⟨between, rfl, rest⟩
  · cases between with
    | nil =>
      cases rest
      rfl
    | cons token between =>
      obtain ⟨-, rfl⟩ := List.cons.inj rest
      exact (apart balanced balanced').elim
  · cases between with
    | nil =>
      cases rest
      rfl
    | cons token between =>
      obtain ⟨-, rfl⟩ := List.cons.inj rest
      exact (apart balanced' balanced).elim

/-- If a list is innermost among those that are open, not all lists are closed. -/
lemma Innermost.not_closed {placed : List (Nat × Token)} {opened : Nat}
    (innermost : Innermost placed opened) (sound : Sound (placed.map Prod.snd)) :
    (placed.map Prod.snd).count .opening ≠ (placed.map Prod.snd).count .closing := by
  obtain ⟨before, behind, rfl, balanced⟩ := innermost
  have few := sound.closes (before.map Prod.snd) (by simp)
  have even := balanced.even
  simp
  omega

/-! ## Reading up to a fault -/

/-- An atom cannot be taken for a form just if it is a number that does not fit. -/
lemma ofAtom_eq_error_iff {name : String} :
    ofAtom offset name = .error error ↔ Overflows name ∧ error = .integerRange offset := by
  constructor
  · intro fails
    unfold ofAtom at fails
    by_cases yes : (name == "true") = true
    · rw [if_pos yes] at fails
      cases fails
    by_cases no : (name == "false") = true
    · rw [if_neg yes, if_pos no] at fails
      cases fails
    by_cases number : isIntegerText name.toList = true
    · rw [if_neg yes, if_neg no, if_pos number] at fails
      by_cases fits : fitsWord (integerValue name.toList) = true
      · simp only [fits, if_true] at fails
        cases fails
      · simp only [fits] at fails
        cases fails
        exact ⟨⟨_, spells_of_isNumeric (isIntegerText_iff.1 number), mt fitsWord_iff.2 fits⟩, rfl⟩
    · rw [if_neg yes, if_neg no, if_neg number] at fails
      cases fails
  · rintro ⟨⟨n, spells, overflows⟩, rfl⟩
    obtain ⟨numeric, value⟩ : IsNumeric name.toList ∧ integerValue name.toList = n := by
      cases spells with
      | @integer _ _ sign zeros is chars =>
        rw [chars]
        exact integerValue_of_isSign is zeros
    rw [ofAtom_of_isNumeric numeric, value, if_neg (mt fitsWord_iff.1 overflows)]

end Form

namespace Reading

open Form

variable {reading : Reading} {placed : List (Nat × Token)} {token : Token} {offset : Nat}
  {error : ReadError}

/-- A form that is added opens no list and closes none. -/
lemma unclosed_add (reading : Reading) (form : Form) :
    (reading.add form).unclosed.map Prod.fst = reading.unclosed.map Prod.fst := by
  obtain ⟨_ | ⟨⟨offset, items⟩, outer⟩, finished⟩ := reading <;> rfl

/-- A token that breaks a rule is not taken in. -/
lemma step_of_offends (unclosed : Unclosed (reading.unclosed.map Prod.fst) placed)
    (offends : Offends (placed.map Prod.snd) offset token error) :
    reading.step offset token = .error error := by
  have count := unclosed.count
  rw [List.length_map] at count
  cases offends with
  | unbalanced full =>
    have none : reading.unclosed = [] := List.length_eq_zero_iff.1 (by omega)
    rw [step, none]
  | tooDeep full =>
    have deep : reading.unclosed.length ≥ maxNesting := by
      unfold maxNesting
      omega
    rw [step, if_pos deep]
  | overflow overflows =>
    rw [step, ofAtom_eq_error_iff.2 ⟨overflows, rfl⟩]
    rfl

/-- A token that breaks no rule is taken in. -/
lemma step_of_not_offends (unclosed : Unclosed (reading.unclosed.map Prod.fst) placed)
    (fine : ∀ error, ¬ Offends (placed.map Prod.snd) offset token error) :
    ∃ next, reading.step offset token = .ok next ∧
      Unclosed (next.unclosed.map Prod.fst) (placed ++ [(offset, token)]) := by
  have count := unclosed.count
  rw [List.length_map] at count
  cases token with
  | opening =>
    have few := Nat.lt_of_not_le fun full => fine _ (.tooDeep full)
    have room : ¬ reading.unclosed.length ≥ maxNesting := by
      unfold maxNesting
      omega
    rw [step, if_neg room]
    exact ⟨_, rfl, .list unclosed .nil⟩
  | closing =>
    obtain ⟨unclosed', finished⟩ := reading
    cases unclosed' with
    | nil =>
      have some := Nat.lt_of_not_le fun full => fine _ (.unbalanced full)
      simp only [List.length_nil] at count
      omega
    | cons list outer =>
      rw [step]
      refine ⟨_, rfl, ?_⟩
      rw [unclosed_add]
      exact unclosed.close offset
  | text value =>
    rw [step]
    refine ⟨_, rfl, ?_⟩
    rw [unclosed_add]
    exact unclosed.append (.single (by simp) (by simp))
  | atom name =>
    rw [step]
    cases reads : ofAtom offset name with
    | error e =>
      obtain ⟨overflows, rfl⟩ := ofAtom_eq_error_iff.1 reads
      exact absurd (.overflow overflows) (fine _)
    | ok form =>
      refine ⟨_, rfl, ?_⟩
      rw [unclosed_add]
      exact unclosed.append (.single (by simp) (by simp))

/-- Sound tokens are taken in, and reading goes on behind them. -/
lemma steps_of_sound (sound : Sound (placed.map Prod.snd)) :
    ∃ next : Reading, Unclosed (next.unclosed.map Prod.fst) placed ∧
      ∀ rest, Reading.empty.steps (placed.map .ok ++ rest) = next.steps rest := by
  induction placed using List.reverseRecOn with
  | nil => exact ⟨.empty, .none .nil, fun rest => rfl⟩
  | append_singleton placed last ih =>
    obtain ⟨offset, token⟩ := last
    rw [List.map_append] at sound
    obtain ⟨before, fine⟩ := (sound_concat_iff offset).1 sound
    obtain ⟨reading, unclosed, reads⟩ := ih before
    obtain ⟨next, step, unclosed⟩ := step_of_not_offends unclosed fine
    refine ⟨next, unclosed, fun rest => ?_⟩
    rw [List.map_append, List.append_assoc, reads]
    simp only [List.map_cons, List.map_nil, List.cons_append, List.nil_append, steps, step]

end Reading

namespace Form

variable {tokens : List (Nat × Token)} {fault : Option ReadError} {source : String}
  {error : ReadError}

/-- A text is read through the tokens that it is split into, and then the fault. -/
lemma readAll_of_split (split : Split 0 source.toList tokens fault) :
    readAll source = (Reading.empty.steps (tokens.map .ok ++ fault.toList.map .error)).bind
      Reading.finish := by
  rw [readAll, Reading.run_eq_steps, Cursor.start, Cursor.tokens_of_split split]
  cases Reading.empty.steps _ <;> rfl

/-- A text that is split into sound tokens is read, unless a quoted text is broken or a list is open at
the end. -/
lemma readAll_of_sound (split : Split 0 source.toList tokens fault)
    (sound : Sound (tokens.map Prod.snd)) :
    (∃ error, fault = some error ∧ readAll source = .error error) ∨
      (∃ forms, Accepted tokens fault ∧ readAll source = .ok forms) ∨
        ∃ opened, fault = none ∧ Innermost tokens opened ∧
          readAll source = .error (.unclosedList opened) := by
  obtain ⟨⟨unclosed, finished⟩, open', reads⟩ := Reading.steps_of_sound sound
  rw [readAll_of_split split, reads]
  cases fault with
  | some error => exact .inl ⟨error, rfl, rfl⟩
  | none =>
    refine .inr ?_
    cases unclosed with
    | nil =>
      have count := open'.count
      exact .inl ⟨_, ⟨sound, rfl, count⟩, rfl⟩
    | cons list outer =>
      obtain ⟨opened, items⟩ := list
      cases open' with
      | @list _ _ before behind _ balanced =>
        exact .inr ⟨opened, rfl, ⟨before, behind, rfl, balanced⟩, rfl⟩

/-- The first token that breaks a rule is to blame. -/
lemma readAll_of_offends {before behind : List (Nat × Token)} {offset : Nat} {token : Token}
    (split : Split 0 source.toList (before ++ (offset, token) :: behind) fault)
    (sound : Sound (before.map Prod.snd))
    (offends : Offends (before.map Prod.snd) offset token error) :
    readAll source = .error error := by
  obtain ⟨reading, unclosed, reads⟩ := Reading.steps_of_sound sound
  rw [readAll_of_split split, List.map_append, List.append_assoc, reads, List.map_cons,
    List.cons_append, Reading.steps, Reading.step_of_offends unclosed offends]
  rfl

/-- A text can be read just if its tokens are accepted. -/
lemma readAll_ok_iff (split : Split 0 source.toList tokens fault) :
    (∃ forms, readAll source = .ok forms) ↔ Accepted tokens fault := by
  constructor
  · rintro ⟨forms, reads⟩
    rcases sound_or_offends tokens with sound | ⟨_, _, _, _, error, rfl, sound, offends⟩
    · rcases readAll_of_sound split sound with ⟨_, -, fails⟩ | ⟨_, accepted, -⟩ | ⟨_, -, -, fails⟩
      · cases reads.symm.trans fails
      · exact accepted
      · cases reads.symm.trans fails
    · cases reads.symm.trans (readAll_of_offends split sound offends)
  · rintro ⟨sound, legible, closed⟩
    rcases readAll_of_sound split sound with ⟨_, broken, -⟩ | ⟨forms, -, reads⟩ | ⟨_, -, is, -⟩
    · cases legible.symm.trans broken
    · exact ⟨forms, reads⟩
    · exact absurd closed (is.not_closed sound)

/-- A text cannot be read with just the error that something in it is to blame for. -/
lemma readAll_error_iff (split : Split 0 source.toList tokens fault) :
    readAll source = .error error ↔ Blamed tokens fault error := by
  constructor
  · intro fails
    rcases sound_or_offends tokens with sound | ⟨_, _, _, _, error', rfl, sound, offends⟩
    · rcases readAll_of_sound split sound with
        ⟨_, broken, fails'⟩ | ⟨_, -, reads⟩ | ⟨_, legible, is, fails'⟩
      · cases fails.symm.trans fails'
        exact .text sound broken
      · cases fails.symm.trans reads
      · cases fails.symm.trans fails'
        exact .list sound legible is
    · cases fails.symm.trans (readAll_of_offends split sound offends)
      exact .token rfl sound offends
  · intro blamed
    cases blamed with
    | token parts sound offends =>
      subst parts
      exact readAll_of_offends split sound offends
    | text sound broken =>
      rcases readAll_of_sound split sound with ⟨_, broken', fails⟩ | ⟨_, accepted, -⟩ |
        ⟨_, legible, -⟩
      · cases broken.symm.trans broken'
        exact fails
      · cases broken.symm.trans accepted.legible
      · cases broken.symm.trans legible
    | list sound legible innermost =>
      rcases readAll_of_sound split sound with ⟨_, broken, -⟩ | ⟨_, accepted, -⟩ |
        ⟨_, -, is, fails⟩
      · cases broken.symm.trans legible
      · exact absurd accepted.closed (innermost.not_closed sound)
      · rw [innermost.unique is]
        exact fails

/-- Every text is split into tokens in one way only. It can be read just if nothing is wrong with them, no
quoted text is broken and all lists are closed; and if it cannot, the error is the one of the first token
to blame, of the broken text behind all tokens, or else of the innermost list that is not closed. -/
theorem readAll_blames (source : String) :
    ∃ tokens fault,
      (∀ tokens' fault', Split 0 source.toList tokens' fault' ↔
        tokens' = tokens ∧ fault' = fault) ∧
      ((∃ forms, readAll source = .ok forms) ↔ Accepted tokens fault) ∧
      ∀ error, readAll source = .error error ↔ Blamed tokens fault error := by
  obtain ⟨tokens, fault, split⟩ := exists_split 0 source.toList
  refine ⟨tokens, fault, fun tokens' fault' => ⟨fun split' => split'.unique split, ?_⟩,
    readAll_ok_iff split, fun error => readAll_error_iff split⟩
  rintro ⟨rfl, rfl⟩
  exact split

/-- Offsets count bytes, and an escape is to blame before the quoted text that does not end. -/
example : readAll "(é \"\\q" = .error (.unknownEscape 'q' 5) := by
  cbv

end Form

end BlockPuzzle
