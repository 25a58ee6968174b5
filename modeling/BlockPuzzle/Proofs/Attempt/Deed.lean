import BlockPuzzle.Attempt.Walk
import BlockPuzzle.Proofs.Machine.Calls

/-!
# What an agent does

`Walk.Deed` lists all that a call can do to an agent on a board: the action, and the interrupt that
it raises if there is one. `Walk.Records` says what the call leaves of it: one entry behind the
journal, the logical pose that the action leads to, and the mark of a block that looked around. The
lemmas `results_command` and
`results_sense` are all that is said about the calls; after them no call is unfolded again.
-/

namespace BlockPuzzle

/-- Whether an action is a look at the surroundings. -/
def Action.isSense : Action → Bool
  | sense .. => true
  | _ => false

namespace Walk

/-! ## Calls -/

/-- What an agent in some pose can do, and the interrupt that this raises. -/
inductive Deed (board : Board) (pose : Pose) : Action → Option Interrupt → Prop where
  | move {toward} :
    board.passage pose.position toward = .clear →
    pose.position.step toward ≠ board.finish →
    Deed board pose (.move pose.position (pose.position.step toward)) none
  | arrive {toward} :
    board.passage pose.position toward = .clear →
    pose.position.step toward = board.finish →
    Deed board pose (.move pose.position board.finish) (some .finish)
  | bump {toward} :
    board.passage pose.position toward ≠ .clear →
    Deed board pose (.bump pose.position toward) (some (.crash pose.position toward))
  | turnLeft {target} :
    pose.facing.turnTo target < 0 →
    Deed board pose (.rotateLeft pose.facing target) none
  | turnRight {target} :
    0 ≤ pose.facing.turnTo target →
    Deed board pose (.rotateRight pose.facing target) none
  | sense {toward clear} :
    Deed board pose (.sense toward clear) none
  | finish :
    Deed board pose (.finish pose.position) (some .finish)

/-- One entry has been added to the journal and its action has been carried out; only a sense marks
its block. -/
structure Records (walk walk' : Walk) (entry : Entry) : Prop where
  journal : walk'.attempt.journal.toList = walk.attempt.journal.toList ++ [entry]
  logical : walk'.attempt.logical = entry.action.apply walk.attempt.logical
  display : walk'.attempt.display = walk.attempt.display
  verdict : walk'.attempt.verdict = walk.attempt.verdict
  sensed : walk'.attempt.marks.sensed =
    if entry.action.isSense then walk.attempt.marks.sensed.insert entry.block
    else walk.attempt.marks.sensed
  animated : walk'.attempt.marks.animated = walk.attempt.marks.animated
  wipes : walk'.attempt.marks.wipes = walk.attempt.marks.wipes

/-- The result of a call of a block is that of a deed, which has been recorded. -/
inductive Results {α : Type} (board : Board) (walk : Walk) (block : BlockId) :
    EStateM.Result Interrupt Walk α → Prop where
  | ok {value action walk'} :
    Deed board walk.attempt.logical action none →
    Records walk walk' ⟨block, action⟩ →
    Results board walk block (.ok value walk')
  | error {interrupt action walk'} :
    Deed board walk.attempt.logical action (some interrupt) →
    Records walk walk' ⟨block, action⟩ →
    Results board walk block (.error interrupt walk')

variable {board : Board} {walk : Walk} {block : BlockId}

/-- Doing what an action says records it, unless the action is a look at the surroundings. -/
lemma records_act {action : Action} {pose : Pose} (acts : action.isSense = false)
    (leads : pose = action.apply walk.attempt.logical) :
    Records walk (walk.act block action pose) ⟨block, action⟩ where
  journal := Journal.toList_push _ _
  logical := leads
  display := rfl
  verdict := rfl
  sensed := by
    rw [acts]
    rfl
  animated := rfl
  wipes := rfl

/-- A look at the surroundings is recorded when its block has been marked, now or before. -/
lemma records_look {marked : Walk} {toward : Bearing} {clear : Bool}
    (look : marked.attempt = { walk.attempt with marks := walk.attempt.marks.mark .sense block }) :
    Records walk (marked.act block (.sense toward clear) walk.attempt.logical)
      ⟨block, .sense toward clear⟩ := by
  have sensed := walk.attempt.marks.blocks_mark .sense block .sense
  have animated := walk.attempt.marks.blocks_mark .sense block .animate
  have wipes := walk.attempt.marks.wipes_mark .sense block
  unfold act
  rw [look]
  exact ⟨Journal.toList_push _ _, rfl, rfl, rfl, sensed, animated, wipes⟩

/-- FINISH is where the board says it is. -/
lemma isFinish_iff {p : Point} : board.isFinish p = true ↔ p = board.finish := beq_iff_eq

/-- A step is a move, an arrival or a bump. -/
lemma results_step (side : Side) : Results board walk block (step board side block walk) := by
  simp only [step]
  generalize walk.attempt.logical.facing.toward side = toward
  generalize passed : board.passage walk.attempt.logical.position toward = passage
  cases passage with
  | clear =>
    simp only
    by_cases arrived : walk.attempt.logical.position.step toward = board.finish
    · rw [if_pos (isFinish_iff.2 arrived), arrived]
      exact .error (.arrive passed arrived) (records_act rfl rfl)
    · rw [if_neg fun e => arrived (isFinish_iff.1 e)]
      exact .ok (.move passed arrived) (records_act rfl rfl)
  | wall => exact .error (.bump (by simp [passed])) (records_act rfl rfl)
  | outside => exact .error (.bump (by simp [passed])) (records_act rfl rfl)
  | unexpected expected => exact .error (.bump (by simp [passed])) (records_act rfl rfl)

/-- A turn by at most half a turn either way is a turn to where it leads, to the same side. -/
lemma results_turn {eighths : Int}
    (shortest : walk.attempt.logical.facing.turnTo
      (walk.attempt.logical.facing.rotate eighths) = eighths) :
    Results board walk block (turn eighths block walk) := by
  simp only [turn]
  by_cases left : eighths < 0
  · simp only [if_pos left]
    exact .ok (.turnLeft (by rwa [shortest])) (records_act rfl rfl)
  · simp only [if_neg left]
    exact .ok (.turnRight (by rw [shortest]; omega)) (records_act rfl rfl)

/-- A turn to a bearing leads there. -/
lemma rotate_turnTo (facing target : Bearing) : facing.rotate (facing.turnTo target) = target := by
  cases facing <;> cases target <;> rfl

/-- The turn to a quarter to the left or to the right is just this quarter. -/
lemma turnTo_rotate_quarter (facing : Bearing) :
    facing.turnTo (facing.rotate (-2)) = -2 ∧ facing.turnTo (facing.rotate 2) = 2 := by
  cases facing <;> exact ⟨rfl, rfl⟩

/-- Every command is a deed. -/
lemma results_command (order : Command) :
    Results board walk block (command board order block walk) := by
  cases order with
  | moveForward => exact results_step .ahead
  | moveBackward => exact results_step .behind
  | turnLeft => exact results_turn (turnTo_rotate_quarter _).1
  | turnRight => exact results_turn (turnTo_rotate_quarter _).2
  | face target =>
    apply results_turn
    rw [rotate_turnTo]
  | finish => exact .error .finish (records_act rfl rfl)

/-- Every sense is a deed. -/
lemma results_sense (rule : SenseRule) (side : Side) :
    Results board walk block (sense board rule side block walk) := by
  simp only [sense]
  generalize walk.attempt.logical.facing.toward side = toward
  cases seen : walk.attempt.marks.seen .sense block with
  | true =>
    have marked : walk.attempt.marks.mark .sense block = walk.attempt.marks := if_pos seen
    cases rule with
    | recompute => exact .ok .sense (records_look (by rw [marked]))
    | firstSticks => exact .ok .sense (records_look (by rw [marked]))
  | false => exact .ok .sense (records_look rfl)

end Walk

end BlockPuzzle
