import BlockPuzzle.Proofs.Attempt.Run

/-!
# Hidden counts of an attempt

A session counts things that it never shows: the timers it has made, the generations of its replay
and how often its marks were wiped. A `Lead` says how far these counts are ahead in one session of
those in another. No walk depends on them, so executions stay ahead as far as they were:
`Attempt.execute_ahead`.
-/

namespace BlockPuzzle

/-- How far the hidden counts of a session are ahead of those of another one. -/
structure Lead where
  serials : Nat
  generations : Nat
  wipes : Nat

/-- Marks that were wiped some more times. -/
def Marks.ahead (marks : Marks) (lead : Lead) : Marks :=
  { marks with wipes := marks.wipes + lead.wipes }

/-- An attempt with marks that were wiped some more times. -/
def Attempt.ahead (attempt : Attempt) (lead : Lead) : Attempt :=
  { attempt with marks := attempt.marks.ahead lead }

namespace Marks

variable (marks : Marks) (lead : Lead) (phase : Phase) (block : BlockId)

/-- Marks that were wiped more often have seen the same blocks. -/
lemma seen_ahead : (marks.ahead lead).seen phase block = marks.seen phase block := by
  cases phase with
  | sense => rfl
  | animate => rfl

/-- They take a new mark as the others do. -/
lemma mark_ahead : (marks.ahead lead).mark phase block = (marks.mark phase block).ahead lead := by
  unfold mark
  rw [seen_ahead]
  cases marks.seen phase block with
  | true => rfl
  | false =>
    cases phase with
    | sense => rfl
    | animate => rfl

end Marks

namespace Walk

/-- A walk with marks that were wiped some more times. -/
def ahead (walk : Walk) (lead : Lead) : Walk :=
  { walk with attempt := walk.attempt.ahead lead }

/-- One walk is that far ahead of another one. -/
def Leads (lead : Lead) (walk walk' : Walk) : Prop :=
  walk' = walk.ahead lead

variable (board : Board) (lead : Lead) (walk : Walk) (block : BlockId)

/-- Results of a call in two walks one of which is ahead of the other. -/
abbrev AgreeAhead {α : Type} : EStateM.Result Interrupt Walk α → EStateM.Result Interrupt Walk α →
    Prop :=
  Agree (Leads lead) fun _ => Leads lead

/-- The lead does not show in the logical pose. -/
@[simp] lemma logical_ahead : (walk.ahead lead).attempt.logical = walk.attempt.logical := rfl

/-- It shows in the marks only. -/
@[simp] lemma marks_ahead : (walk.ahead lead).attempt.marks = walk.attempt.marks.ahead lead := rfl

/-- A step does not notice the lead. -/
lemma step_ahead (side : Side) :
    AgreeAhead lead (step board side block walk) (step board side block (walk.ahead lead)) := by
  simp only [step, logical_ahead]
  cases board.passage walk.attempt.logical.position (walk.attempt.logical.facing.toward side) with
  | clear => exact .ite (fun _ => .error rfl) fun _ => .ok rfl
  | wall => exact .error rfl
  | outside => exact .error rfl
  | unexpected expected => exact .error rfl

/-- Nor does any other command. -/
lemma command_ahead (order : Command) :
    AgreeAhead lead (command board order block walk)
      (command board order block (walk.ahead lead)) := by
  cases order with
  | moveForward => exact step_ahead board lead walk block .ahead
  | moveBackward => exact step_ahead board lead walk block .behind
  | turnLeft => exact .ok rfl
  | turnRight => exact .ok rfl
  | face target => exact .ok rfl
  | finish => exact .error rfl

/-- Nor does a look. -/
lemma sense_ahead (rule : SenseRule) (side : Side) :
    AgreeAhead lead (sense board rule side block walk)
      (sense board rule side block (walk.ahead lead)) := by
  simp only [sense, logical_ahead, marks_ahead, Marks.seen_ahead, Marks.mark_ahead]
  refine .ite (fun _ => ?_) fun _ => .ok rfl
  cases rule with
  | recompute => exact .ok rfl
  | firstSticks => exact .ok rfl

/-- A board answers alike, however far ahead the walk is that asks. -/
lemma host_agrees_ahead (rule : SenseRule) :
    (host board rule).Agrees (Leads lead) (fun _ => Leads lead) (host board rule) where
  command order block := by
    rintro rfl
    exact command_ahead board lead _ block order
  sense side block := by
    rintro rfl
    exact sense_ahead board lead _ block rule side
  notDone {walk _} := by
    rintro rfl
    exact .ok rfl

/-- A run ends alike, however far ahead it began. -/
lemma run_ahead (rule : SenseRule) (budget ticks : Nat) (machine : Machine) :
    run board rule budget ticks machine (walk.ahead lead) =
      ((run board rule budget ticks machine walk).1,
        (run board rule budget ticks machine walk).2.1,
        (run board rule budget ticks machine walk).2.2.ahead lead) := by
  have agree := runOn_agrees (host_agrees_ahead board lead rule) budget ticks machine
    (rfl : Leads lead walk (walk.ahead lead))
  rw [← run_eq_runOn, ← run_eq_runOn] at agree
  generalize run board rule budget ticks machine walk = ends at agree
  generalize run board rule budget ticks machine (walk.ahead lead) = ends' at agree
  cases agree with
  | machine _ _ leads => rw [leads]
  | host leads => rw [leads]

end Walk

namespace Attempt

/-- An attempt is concluded alike, however far ahead it is. -/
lemma conclude_ahead (attempt : Attempt) (lead : Lead) (board : Board) (script program : String)
    (ending : Ending) (ticks divergences : Nat) :
    (attempt.ahead lead).conclude board script program ending ticks divergences =
      ((attempt.conclude board script program ending ticks divergences).1,
        (attempt.conclude board script program ending ticks divergences).2.ahead lead) := by
  have same : (attempt.ahead lead).verdict = attempt.verdict := rfl
  simp only [conclude, settle, same]
  by_cases unset : attempt.verdict = .unset
  · rw [if_pos unset, if_pos unset]
    rfl
  · rw [if_neg unset, if_neg unset]
    rfl

/-- The execution of a script gives the same report and leaves the same attempt, but for the marks
that were wiped some more times before. -/
theorem execute_ahead (attempt : Attempt) (lead : Lead) (board : Board) (settings : Settings)
    (script : String) : (attempt.ahead lead).execute board settings script =
      ((attempt.execute board settings script).1,
        (attempt.execute board settings script).2.ahead lead) := by
  unfold execute
  cases Program.compile script with
  | error e => exact conclude_ahead attempt lead ..
  | ok program =>
    have start : Walk.start (attempt.ahead lead) = (Walk.start attempt).ahead lead := rfl
    simp only [start, Walk.run_ahead]
    exact conclude_ahead _ lead ..

end Attempt

end BlockPuzzle
