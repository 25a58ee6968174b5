import BlockPuzzle.Machine.Basic

/-!
# Evaluation of programs

A second reading of programs: `Program.evaluate` runs a program by recursion on its statements and
on the nesting that is still allowed, without frames and without indices. It threads the state of
the host and counts ticks: one for each statement that is reached and one for the end of each pass
of a body.

Loops without an end of their own make at most `passes` passes. An evaluation that would need more
is `Evaluation.cut`, which says nothing but that; one that comes to an end is an end for every
larger bound.
-/

namespace BlockPuzzle

/-- How a part of a program ends: in a state after some ticks, with a fault in the last of some
ticks, or not within the passes that were allowed. -/
inductive Evaluation (σ ε : Type) where
  | done (ticks : Nat) (state : σ)
  | fault (ticks : Nat) (fault : Fault ε) (state : σ)
  | cut

namespace Evaluation

variable {σ ε α : Type}

/-- The same end some ticks later. -/
def delay (ticks : Nat) : Evaluation σ ε → Evaluation σ ε
  | done later state => done (ticks + later) state
  | fault later why state => fault (ticks + later) why state
  | cut => cut

/-- Goes on from the state in which the first part ends; a fault ends everything. -/
def andThen (first : Evaluation σ ε) (next : σ → Evaluation σ ε) : Evaluation σ ε :=
  match first with
  | done ticks state => (next state).delay ticks
  | fault ticks why state => fault ticks why state
  | cut => cut

/-- Goes on with what a call of the host gave; a failed call ends everything. -/
def ofCall (answer : EStateM.Result ε σ α) (next : α → σ → Evaluation σ ε) : Evaluation σ ε :=
  match answer with
  | .ok value state => next value state
  | .error error state => fault 0 (.host error) state

/-- Runs statements one after the other. -/
def inOrder (run : Statement → σ → Evaluation σ ε) : List Statement → σ → Evaluation σ ε
  | [], state => done 0 state
  | statement :: statements, state => (run statement state).andThen (inOrder run statements)

/-- Makes a number of passes, each with a tick for its end. -/
def repeatTimes (pass : σ → Evaluation σ ε) : Nat → σ → Evaluation σ ε
  | 0, state => done 0 state
  | times + 1, state => (pass state).andThen fun state => (repeatTimes pass times state).delay 1

/-- Makes passes for as long as the test at the end of each one, which is part of that tick, goes on
with its first choice. -/
def repeatWhile (test : (σ → Evaluation σ ε) → (σ → Evaluation σ ε) → σ → Evaluation σ ε)
    (pass : σ → Evaluation σ ε) : Nat → σ → Evaluation σ ε
  | 0, _ => cut
  | passes + 1, state =>
    (pass state).andThen fun state => (test (repeatWhile test pass passes) (done 0) state).delay 1

/-- Makes passes without an end. -/
def repeatForever (pass : σ → Evaluation σ ε) : Nat → σ → Evaluation σ ε
  | 0, _ => cut
  | passes + 1, state => (pass state).andThen fun state => (repeatForever pass passes state).delay 1

end Evaluation

section

variable {σ ε : Type} (host : Host σ ε) (procedures : List Procedure)

mutual

/-- Goes on with `yes` if a condition holds and with `no` if it does not. -/
def Condition.evaluate :
    Condition → (σ → Evaluation σ ε) → (σ → Evaluation σ ε) → σ → Evaluation σ ε
  | .literal value, yes, no, state => if value then yes state else no state
  | .path side block, yes, no, state =>
    .ofCall (host.sense side block state) fun clear state => if clear then yes state else no state
  | .notDone, yes, no, state =>
    .ofCall (host.notDone state) fun under_way state => if under_way then yes state else no state
  | .negation inner, yes, no, state => inner.evaluate no yes state
  | .all items, yes, no, state => evaluateAll items yes no state
  | .any items, yes, no, state => evaluateAny items yes no state

/-- Goes on with `no` at the first item that does not hold; those behind it are not asked. -/
def evaluateAll : List Condition → (σ → Evaluation σ ε) → (σ → Evaluation σ ε) → σ → Evaluation σ ε
  | [], yes, _, state => yes state
  | item :: items, yes, no, state => item.evaluate (evaluateAll items yes no) no state

/-- Goes on with `yes` at the first item that holds; those behind it are not asked. -/
def evaluateAny : List Condition → (σ → Evaluation σ ε) → (σ → Evaluation σ ε) → σ → Evaluation σ ε
  | [], _, no, state => no state
  | item :: items, yes, no, state => item.evaluate yes (evaluateAny items yes no) state

end

/-- Makes the passes of a body that has been entered. -/
def FrameKind.evaluate (passes : Nat) (kind : FrameKind) (pass : σ → Evaluation σ ε) :
    σ → Evaluation σ ε :=
  match kind with
  | .block => Evaluation.repeatTimes pass 1
  | .procedure => Evaluation.repeatTimes pass 1
  | .loop times => Evaluation.repeatTimes pass times
  | .whileHolds condition => Evaluation.repeatWhile (condition.evaluate host) pass passes
  | .forever => Evaluation.repeatForever pass passes

/-- Runs the body of the first arm whose condition holds, or else the last resort. -/
def evaluateArms (enter : FrameKind → List Statement → σ → Evaluation σ ε)
    (otherwise : Option (List Statement)) : List Arm → σ → Evaluation σ ε
  | [], state =>
    match otherwise with
    | some body => enter .block body state
    | none => .done 0 state
  | arm :: arms, state =>
    arm.condition.evaluate host (enter .block arm.body) (evaluateArms enter otherwise arms) state

/-- Runs one statement; `enter` runs the bodies in it. -/
def Statement.evaluate (enter : FrameKind → List Statement → σ → Evaluation σ ε)
    (statement : Statement) (state : σ) : Evaluation σ ε :=
  Evaluation.delay 1 <|
    match statement with
    | .command order block =>
      .ofCall (host.command order block state) fun _ state => .done 0 state
    | .loop times body =>
      if times = 0 then .done 0 state else enter (.loop times.toNat) body state
    | .whileHolds condition body =>
      condition.evaluate host (enter (.whileHolds condition) body) (.done 0) state
    | .forever body => enter .forever body state
    | .branch arms otherwise => evaluateArms host enter otherwise arms state
    | .call index =>
      match procedures[index]? with
      | some procedure => enter .procedure procedure.body state
      | none => .fault 0 (.unknownProcedure index) state

/-- Enters a body and runs it, if `room` more levels of nesting out of `limit` leave one for it. -/
def enterBody (limit passes : Nat) : Nat → FrameKind → List Statement → σ → Evaluation σ ε
  | 0, _, _, state => .fault 0 (.tooDeep limit) state
  | room + 1, kind, body, state =>
    kind.evaluate host passes
      (.inOrder (Statement.evaluate host procedures (enterBody limit passes room)) body) state

/-- Runs a program whose bodies may nest `limit` levels deep, its main body being the first one. One
level is always allowed. -/
def Program.evaluate (limit passes : Nat) (program : Program) (state : σ) : Evaluation σ ε :=
  enterBody host program.procedures (max 1 limit) passes (max 1 limit) .block program.main state

end

end BlockPuzzle
