import BlockPuzzle.Program.Basic

/-!
# The tick machine

A machine runs a program in small bounded steps against a host. The host obeys commands and answers
conditions; each of its calls may fail, and its state goes on from where the call left it also then.
`Machine.tick` runs one statement, one check at the end of a loop body, or one exit from a body.
-/

namespace BlockPuzzle

/-- What a machine asks of its surroundings: `σ` is the state of the host, `ε` why a call fails. -/
structure Host (σ ε : Type) where
  command : Command → BlockId → EStateM ε σ Unit
  sense : Side → BlockId → EStateM ε σ Bool
  notDone : EStateM ε σ Bool

/-- Why a tick fails. -/
inductive Fault (ε : Type) where
  | host (error : ε)
  | unknownProcedure (index : Nat)
  | tooDeep (limit : Nat)
  deriving DecidableEq

/-- The words for a failed tick, given those for a failed call of the host. -/
def Fault.message {ε : Type} (text : ε → String) : Fault ε → String
  | host error => "host: " ++ text error
  | unknownProcedure index => "unknown procedure index " ++ toString index
  | tooDeep limit => "frame depth limit of " ++ toString limit ++ " exceeded"

/-! ## Conditions -/

mutual

/-- Asks the host for the truth of a condition. Both connectives stop at the first item that decides
them. -/
def Condition.eval {σ ε : Type} (host : Host σ ε) : Condition → EStateM ε σ Bool
  | .literal value => pure value
  | .path side block => host.sense side block
  | .notDone => host.notDone
  | .negation inner => do
    let value ← inner.eval host
    return !value
  | .all items => evalAll host items
  | .any items => evalAny host items

/-- Whether all conditions hold, asked from left to right. -/
def evalAll {σ ε : Type} (host : Host σ ε) : List Condition → EStateM ε σ Bool
  | [] => pure true
  | c :: cs => do
    let value ← c.eval host
    if value then evalAll host cs else return false

/-- Whether one of the conditions holds, asked from left to right. -/
def evalAny {σ ε : Type} (host : Host σ ε) : List Condition → EStateM ε σ Bool
  | [] => pure false
  | c :: cs => do
    let value ← c.eval host
    if value then return true else evalAny host cs

end

/-- The body of the first arm whose condition holds, or else the last resort. -/
def chooseArm {σ ε : Type} (host : Host σ ε) (otherwise : Option (List Statement)) :
    List Arm → EStateM ε σ (Option (List Statement))
  | [] => pure otherwise
  | arm :: arms => do
    let value ← arm.condition.eval host
    if value then return some arm.body else chooseArm host otherwise arms

/-! ## Frames -/

/-- What happens at the end of a body. -/
inductive FrameKind where
  | block
  | procedure
  | loop (remaining : Nat)
  | whileHolds (condition : Condition)
  | forever

/-- A body that is being run and the index of its next statement. -/
structure Frame where
  kind : FrameKind
  body : List Statement
  index : Nat

/-- The state of a machine: its open frames, innermost first, and how many more may be opened. -/
structure Machine where
  procedures : List Procedure
  room : Nat
  frames : List Frame
  completed : Bool

/-- What a tick that did not fail reports. -/
inductive Progress where
  | running
  | completed
  deriving DecidableEq

/-- What a tick leaves behind: its report, the machine and the state of the host. -/
structure Tick (σ ε : Type) where
  report : Except (Fault ε) Progress
  machine : Machine
  host : σ

namespace Machine

/-- The depth that a machine has if none is asked for. -/
def defaultLimit : Nat := 256

/-- A machine at the start of a program, with at least one frame allowed. -/
def load (program : Program) (limit : Nat) : Machine where
  procedures := program.procedures
  room := limit - 1
  frames := [⟨.block, program.main, 0⟩]
  completed := false

/-- Number of open frames. -/
def depth (machine : Machine) : Nat :=
  machine.frames.length

/-- How many frames may be open at once. -/
def limit (machine : Machine) : Nat :=
  machine.room + machine.depth

/-- Whether another tick would do anything. -/
def hasWork (machine : Machine) : Bool :=
  !machine.completed && !machine.frames.isEmpty

section

variable {σ ε : Type} (host : Host σ ε)

/-- A tick that went well. -/
def went (machine : Machine) (state : σ) : Tick σ ε :=
  ⟨.ok .running, machine, state⟩

/-- A tick that failed. -/
def failed (machine : Machine) (fault : Fault ε) (state : σ) : Tick σ ε :=
  ⟨.error fault, machine, state⟩

/-- Opens a frame for a body, if one more is allowed. -/
def enter (machine : Machine) (kind : FrameKind) (body : List Statement) (state : σ) : Tick σ ε :=
  match machine.room with
  | 0 => machine.failed (.tooDeep machine.limit) state
  | room + 1 => went { machine with frames := ⟨kind, body, 0⟩ :: machine.frames, room } state

/-- Closes the innermost frame. -/
def leave (machine : Machine) (outer : List Frame) (state : σ) : Tick σ ε :=
  went { machine with frames := outer, room := machine.room + 1 } state

/-- Runs one statement. The frame that holds it already points behind it. -/
def run (machine : Machine) (statement : Statement) (state : σ) : Tick σ ε :=
  match statement with
  | .command command block =>
    match host.command command block state with
    | .ok _ state => machine.went state
    | .error e state => machine.failed (.host e) state
  | .loop times body =>
    if times = 0 then machine.went state else machine.enter (.loop times.toNat) body state
  | .whileHolds condition body =>
    match condition.eval host state with
    | .ok true state => machine.enter (.whileHolds condition) body state
    | .ok false state => machine.went state
    | .error e state => machine.failed (.host e) state
  | .forever body => machine.enter .forever body state
  | .branch arms otherwise =>
    match chooseArm host otherwise arms state with
    | .ok (some body) state => machine.enter .block body state
    | .ok none state => machine.went state
    | .error e state => machine.failed (.host e) state
  | .call index =>
    match machine.procedures[index]? with
    | some procedure => machine.enter .procedure procedure.body state
    | none => machine.failed (.unknownProcedure index) state

/-- Ends a pass of the innermost body: starts another one or closes the frame. -/
def endPass (machine : Machine) (frame : Frame) (outer : List Frame) (state : σ) : Tick σ ε :=
  match frame.kind with
  | .block => machine.leave outer state
  | .procedure => machine.leave outer state
  | .forever => went { machine with frames := { frame with index := 0 } :: outer } state
  | .loop remaining =>
    let remaining := remaining - 1
    if remaining = 0 then machine.leave outer state
    else
      went { machine with frames := { frame with kind := .loop remaining, index := 0 } :: outer }
        state
  | .whileHolds condition =>
    match condition.eval host state with
    | .ok true state =>
      went { machine with frames := { frame with index := 0 } :: outer } state
    | .ok false state => machine.leave outer state
    | .error e state => machine.failed (.host e) state

/-- One bounded step: a statement, the end of a pass, or the report that all is done. -/
def tick (machine : Machine) (state : σ) : Tick σ ε :=
  if machine.completed then ⟨.ok .completed, machine, state⟩
  else
    match machine.frames with
    | [] => ⟨.ok .completed, { machine with completed := true }, state⟩
    | frame :: outer =>
      match frame.body[frame.index]? with
      | some statement =>
        run host { machine with frames := { frame with index := frame.index + 1 } :: outer }
          statement state
      | none => endPass host machine frame outer state

end

end Machine

end BlockPuzzle
