import BlockPuzzle.Proofs.Attempt.Looks

/-!
# What a run answers

`Walk.sense_answers` is all that is said about a look: it is answered by the rule for senses, given the
first answer that the walk remembers. What the walk remembers and what it has marked both agree with its
journal (`Walk.Answers`), so the answers of the journal are those that the rule demands, and the machine
was given no others: `Attempt.execute_answers`.
-/

namespace BlockPuzzle

/-- A look of a block to one side, with the answer that it got, if it got one. -/
structure Look where
  block : BlockId
  toward : Bearing
  answer : Option Bool

/-- The look that an entry tells of. -/
def Entry.look? (entry : Entry) : Option Look :=
  match entry.action with
  | .sense toward clear => some ⟨entry.block, toward, some clear⟩
  | _ => none

/-- The look that a call asks for, with the answer that it gives to the machine. -/
def Call.look? (call : Call Walk) : Option Look :=
  match call.request with
  | .sense side block => some ⟨block, call.before.attempt.logical.facing.toward side, call.answer⟩
  | _ => none

namespace Walk

/-! ## Calls -/

/-- The result of a command of a block: it has done something that is no look. -/
inductive Acts (walk : Walk) (block : BlockId) : EStateM.Result Interrupt Walk Unit → Prop where
  | ok {action} :
    action.isSense = false →
    Acts walk block (.ok () (walk.act block action (action.apply walk.attempt.logical)))
  | error {interrupt action} :
    action.isSense = false →
    Acts walk block (.error interrupt (walk.act block action (action.apply walk.attempt.logical)))

variable {board : Board} {rule : SenseRule} {start : Pose} {wipes : Nat} {walk walk' : Walk}
  {calls : List (Call Walk)} {block : BlockId}

/-- A step writes down an act and marks nothing. -/
lemma acts_step (side : Side) : Acts walk block (step board side block walk) := by
  simp only [step]
  generalize walk.attempt.logical.facing.toward side = toward
  cases board.passage walk.attempt.logical.position toward with
  | clear =>
    simp only
    by_cases arrived : board.isFinish (walk.attempt.logical.position.step toward) = true
    · rw [if_pos arrived]
      exact @Acts.error _ _ _ (.move ..) rfl
    · rw [if_neg arrived]
      exact @Acts.ok _ _ (.move ..) rfl
  | _ => exact @Acts.error _ _ _ (.bump ..) rfl

/-- So does a turn. -/
lemma acts_turn (eighths : Int) : Acts walk block (turn eighths block walk) := by
  simp only [turn]
  by_cases left : eighths < 0
  · rw [if_pos left]
    exact @Acts.ok _ _ (.rotateLeft ..) rfl
  · rw [if_neg left]
    exact @Acts.ok _ _ (.rotateRight ..) rfl

/-- No command looks around. -/
lemma acts_command (board : Board) (walk : Walk) (block : BlockId) (order : Command) :
    Acts walk block (command board order block walk) := by
  cases order with
  | moveForward => exact acts_step .ahead
  | moveBackward => exact acts_step .behind
  | turnLeft => exact acts_turn (-2)
  | turnRight => exact acts_turn 2
  | face target => exact acts_turn _
  | finish => exact @Acts.error _ _ _ (.finish ..) rfl

/-- If the blocks that are marked are those with a first answer, a look is answered by the rule and the
first answer is remembered. -/
lemma sense_answers (board : Board) (rule : SenseRule) (side : Side)
    (agree : walk.attempt.marks.seen .sense block = (walk.firstAnswers.lookup block).isSome) :
    let toward := walk.attempt.logical.facing.toward side
    let seen := board.sees walk.attempt.logical toward
    let first := (walk.firstAnswers.lookup block).getD seen
    ∃ walk', sense board rule side block walk = .ok (rule.answer first seen) walk' ∧
      Records walk walk' ⟨block, .sense toward (rule.answer first seen)⟩ ∧
      walk'.divergences = walk.divergences + rule.divergence first seen ∧
      ∀ other, walk'.firstAnswers.lookup other =
        if other = block then some first else walk.firstAnswers.lookup other := by
  intro toward seen first
  unfold sense
  cases marked : walk.attempt.marks.seen .sense block with
  | true =>
    have same : walk.attempt.marks.mark .sense block = walk.attempt.marks := if_pos marked
    -- the first answer is known, so it is remembered already
    have known : ∀ other, walk.firstAnswers.lookup other =
        if other = block then some first else walk.firstAnswers.lookup other := by
      obtain ⟨answer, answered⟩ := Option.isSome_iff_exists.1 (agree ▸ marked)
      have old : first = answer := by simp only [first, answered, Option.getD_some]
      intro other
      by_cases own : other = block
      · rw [if_pos own, own, answered, old]
      · rw [if_neg own]
    cases rule with
    | recompute => exact ⟨_, rfl, records_look (by rw [same]), rfl, known⟩
    | firstSticks => exact ⟨_, rfl, records_look (by rw [same]), rfl, known⟩
  | false =>
    have none : walk.firstAnswers.lookup block = none := by
      rw [← Option.not_isSome_iff_eq_none, ← agree, marked]
      exact Bool.false_ne_true
    have new : first = seen := by simp only [first, none, Option.getD_none]
    have answer : rule.answer first seen = seen := by rw [new, SenseRule.answer_self]
    have divergence : rule.divergence first seen = 0 := by
      rw [new]
      cases rule with
      | recompute => exact if_pos (beq_self_eq_true seen)
      | firstSticks => rfl
    rw [answer, divergence]
    refine ⟨_, rfl, records_look rfl, rfl, ?_⟩
    intro other
    change List.lookup other ((block, seen) :: walk.firstAnswers) = _
    rw [List.lookup_cons, new]
    by_cases own : other = block
    · rw [if_pos own, beq_iff_eq.2 own]
    · rw [if_neg own, beq_eq_false_iff_ne.2 own]

/-! ## The invariant -/

/-- What a walk remembers and has marked agrees with its journal, the journal keeps the rule for senses,
and it tells of the looks that the calls have asked for, newest call first. -/
structure Answers (rule : SenseRule) (board : Board) (start : Pose) (wipes : Nat) (walk : Walk)
    (calls : List (Call Walk)) : Prop extends Marked wipes walk where
  logical : walk.attempt.logical = carryOut start walk.attempt.journal.toList
  known : ∀ block, walk.firstAnswers.lookup block = firstAnswer? walk.attempt.journal.toList block
  looks : calls.reverse.filterMap Call.look? = walk.attempt.journal.toList.filterMap Entry.look?
  governs : rule.Governs board start walk.attempt.journal.toList
  divergences : walk.divergences = rule.divergences walk.attempt.journal.toList

/-- Exactly the blocks with a first answer are marked. -/
lemma Answers.agree (answers : Answers rule board start wipes walk calls) (block : BlockId) :
    walk.attempt.marks.seen .sense block = (walk.firstAnswers.lookup block).isSome := by
  rw [answers.known, Bool.eq_iff_iff, firstAnswer?_isSome_iff, ← answers.sensed.mem_iff]
  exact List.contains_iff_mem

/-- Looks are told of one by one. -/
lemma Answers.looks_concat (answers : Answers rule board start wipes walk calls) {entry : Entry}
    {call : Call Walk} (records : Records walk walk' entry) (same : call.look? = entry.look?) :
    (call :: calls).reverse.filterMap Call.look? =
      walk'.attempt.journal.toList.filterMap Entry.look? := by
  rw [records.journal, List.reverse_cons, List.filterMap_append, List.filterMap_append,
    answers.looks]
  simp only [List.filterMap_cons, List.filterMap_nil, same]

/-- What a command has done keeps the invariant. -/
lemma Answers.acted (answers : Answers rule board start wipes walk calls) {action : Action}
    (acts : action.isSense = false) (order : Command) :
    let walk' := walk.act block action (action.apply walk.attempt.logical)
    Answers rule board start wipes walk'
      (⟨.command order block, none, walk, walk'⟩ :: calls) := by
  intro walk'
  have records : Records walk walk' ⟨block, action⟩ := records_act acts rfl
  have silent : Entry.look? ⟨block, action⟩ = none := by
    cases action with
    | sense => cases acts
    | _ => rfl
  constructor
  · exact answers.toMarked.deed records
  · exact records.carriesOut answers.logical
  · intro other
    rw [records.journal, firstAnswer?_acted acts]
    exact answers.known other
  · exact answers.looks_concat records silent.symm
  · rw [records.journal]
    apply answers.governs.concat
    rintro _ _ _ ⟨⟩
    cases acts
  · rw [records.journal, SenseRule.divergences_acted rule acts]
    exact answers.divergences

/-- A look can be answered, and keeps the invariant. -/
lemma Answers.looked (answers : Answers rule board start wipes walk calls) (side : Side)
    (block : BlockId) :
    ∃ clear walk', sense board rule side block walk = .ok clear walk' ∧
      Answers rule board start wipes walk' (⟨.sense side block, some clear, walk, walk'⟩ :: calls) := by
  obtain ⟨walk', answered, records, divergences, known⟩ :=
    sense_answers board rule side (answers.agree block)
  refine ⟨_, walk', answered, ?_⟩
  constructor
  · exact answers.toMarked.deed records
  · exact records.carriesOut answers.logical
  · intro other
    rw [records.journal, known, answers.known, answers.known,
      SenseRule.firstAnswer?_answered]
  · exact answers.looks_concat records rfl
  · rw [records.journal]
    apply answers.governs.concat
    rintro _ _ _ ⟨⟩
    rw [answers.known, answers.logical]
  · rw [records.journal, divergences, answers.divergences, answers.known,
      SenseRule.divergences_looked]

/-- All calls keep the invariant. -/
lemma noting_keeps_answers (board : Board) (rule : SenseRule) (start : Pose) (wipes : Nat) :
    (host board rule).noting.Keeps (fun p => Answers rule board start wipes p.1 p.2)
      fun _ p => Answers rule board start wipes p.1 p.2 := by
  apply Host.Keeps.of_leaves
  · rintro order block ⟨walk, calls⟩ answers
    have acts := acts_command board walk block order
    simp only [Host.noting, host, note]
    generalize command board order block walk = result at acts
    cases acts with
    | ok acts => exact answers.acted acts order
    | error acts => exact answers.acted acts order
  · rintro side block ⟨walk, calls⟩ answers
    obtain ⟨clear, walk', answered, kept⟩ := answers.looked side block
    simp only [Host.noting, host, note, answered]
    exact kept
  · rintro ⟨walk, calls⟩ answers
    -- the question is no look
    refine ⟨answers.toMarked, answers.logical, answers.known, ?_, answers.governs,
      answers.divergences⟩
    rw [← answers.looks, List.reverse_cons, List.filterMap_append]
    exact List.append_nil _

end Walk

/-- The answers in the journal of a script that has been executed in a fresh attempt are those that the
rule for senses demands, the report counts those that diverge, and the machine was given the same
answers to the same looks. -/
theorem Attempt.execute_answers (board : Board) (start : Pose) (marks : Marks) (settings : Settings)
    (script : String) :
    let first := fresh start marks.wipe
    let entries := (first.execute board settings script).2.journal.toList
    settings.senseRule.Governs board start entries ∧
      (first.execute board settings script).1.divergences =
        settings.senseRule.divergences entries ∧
      (first.calls board settings script).filterMap Call.look? =
        entries.filterMap Entry.look? := by
  intro first entries
  have begins : Walk.Answers settings.senseRule board start (marks.wipes + 1) (Walk.start first) [] := by
    refine ⟨⟨.nil, rfl⟩, rfl, fun block => rfl, rfl, .nil _ board start, ?_⟩
    cases settings.senseRule <;> rfl
  obtain ⟨walk, report, executed, -, -, -, divergences, ends⟩ := execute_ends
    (Walk.noting_keeps_answers board settings.senseRule start (marks.wipes + 1)) script rfl begins
  have answers : Walk.Answers settings.senseRule board start (marks.wipes + 1) walk
      (first.calls board settings script).reverse := ends.holds
  have left : entries = walk.attempt.journal.toList := by
    simp only [entries, executed]
  rw [left, executed, ← answers.looks, List.reverse_reverse]
  exact ⟨answers.governs, divergences.trans answers.divergences, rfl⟩

end BlockPuzzle
