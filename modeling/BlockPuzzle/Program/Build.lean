import BlockPuzzle.Form.Basic
import BlockPuzzle.Program.Basic

/-!
# Programs from forms

`Program.ofForms` turns the forms of a script into a program. Procedures are collected first, so that
they may be called before they are defined; then their bodies are read, then the main statements. The
first form that breaks a rule decides the error.
-/

namespace BlockPuzzle

/-- Where a list was expected. -/
inductive ListPlace where
  | statement
  | branchArm
  | condition
  deriving DecidableEq

/-- The words for such a place. -/
def ListPlace.text : ListPlace → String
  | statement => "statement"
  | branchArm => "branch arm"
  | condition => "condition"

/-- What keeps a list of forms from being a program. -/
inductive BuildError where
  | expectedName
  | expectedBlock
  | expectedDirection
  | expectedList (place : ListPlace)
  | unnamedDefinition
  | duplicateProcedure (name : String)
  | secondProgram
  | unnamedProgram
  | statementHead
  | commandItems
  | turnItems
  | unknownDirection (text : String)
  | missingCount
  | countType
  | countRange (count : Int)
  | missingCondition (head : String)
  | armAfterOtherwise
  | unknownArm
  | callItems
  | unknownProcedure (name : String)
  | notAtTop (head : String)
  | unknownStatement (head : String)
  | conditionHead
  | pathItems
  | notItems
  | unknownCondition (head : String)
  deriving DecidableEq

/-- The words for a building error. -/
def BuildError.message : BuildError → String
  | expectedName => "expected name"
  | expectedBlock => "expected block id"
  | expectedDirection => "expected direction"
  | expectedList place => "expected list in " ++ place.text
  | unnamedDefinition => "define requires a name"
  | duplicateProcedure name => "procedure '" ++ name ++ "' defined twice"
  | secondProgram => "only one program form is allowed"
  | unnamedProgram => "program requires a name"
  | statementHead => "statement must start with a symbol"
  | commandItems => "native call expects exactly one block id"
  | turnItems => "turn expects a direction and a block id"
  | unknownDirection text => Bearing.unknownMessage text
  | missingCount => "repeat requires a count"
  | countType => "repeat count must be an integer"
  | countRange count => "repeat count out of range: " ++ toString count
  | missingCondition head => head ++ " requires a condition"
  | armAfterOtherwise => "otherwise must be the last branch arm"
  | unknownArm => "unknown branch arm"
  | callItems => "call expects a procedure name"
  | unknownProcedure name => "unknown procedure '" ++ name ++ "'"
  | notAtTop head => head ++ " is only allowed at top level"
  | unknownStatement head => "unknown statement '" ++ head ++ "'"
  | conditionHead => "condition must start with a symbol"
  | pathItems => "path condition expects exactly one block id"
  | notItems => "not expects a single condition"
  | unknownCondition head => "unknown condition '" ++ head ++ "'"

/-! ## Small parts -/

namespace Form

/-- A name: a symbol or a quoted text. -/
def toName (form : Form) : Except BuildError String :=
  match form.name? with
  | some name => .ok name
  | none => .error .expectedName

/-- A block: a symbol or a quoted text that is not empty. -/
def toBlock (form : Form) : Except BuildError BlockId :=
  match form.name? with
  | some name => if name.isEmpty then .error .expectedBlock else .ok name
  | none => .error .expectedBlock

/-- A bearing, spelled by a symbol or a quoted text. -/
def toBearing (form : Form) : Except BuildError Bearing :=
  match form.name? with
  | some name =>
    match Bearing.ofText? name with
    | some bearing => .ok bearing
    | none => .error (.unknownDirection name)
  | none => .error .expectedDirection

/-- A count of passes: an integer from 0 that fits a word of 32 bits. -/
def toCount : Form → Except BuildError UInt32
  | integer n =>
    if 0 ≤ n ∧ n < 4294967296 then .ok (UInt32.ofNat n.toNat) else .error (.countRange n)
  | _ => .error .countType

/-- The items of a command without further data: exactly one block. -/
def toCommand (command : Command) : List Form → Except BuildError Statement
  | [block] => do
    let block ← block.toBlock
    return .command command block
  | _ => .error .commandItems

/-- The items of a turn to a bearing: the bearing and one block. -/
def toTurn : List Form → Except BuildError Statement
  | [target, block] => do
    let target ← target.toBearing
    let block ← block.toBlock
    return .command (.face target) block
  | _ => .error .turnItems

/-- The items of a look to one side: exactly one block. -/
def toPath (side : Side) : List Form → Except BuildError Condition
  | [block] => do
    let block ← block.toBlock
    return .path side block
  | _ => .error .pathItems

/-- The items of a call: the name of one of the procedures. -/
def toCall (procedures : List String) : List Form → Except BuildError Statement
  | [name] => do
    let name ← name.toName
    match procedures.idxOf? name with
    | some index => return .call index
    | none => .error (.unknownProcedure name)
  | _ => .error .callItems

/-! ## Conditions -/

mutual

/-- Reads a condition. -/
def toCondition : Form → Except BuildError Condition
  | .boolean value => .ok (.literal value)
  | .list (.symbol head :: items) =>
    match head with
    | "path-ahead" => toPath .ahead items
    | "path-right" => toPath .right items
    | "path-behind" => toPath .behind items
    | "path-left" => toPath .left items
    | "not-done" => .ok .notDone
    | "not" =>
      match items with
      | [inner] => do
        let inner ← inner.toCondition
        return .negation inner
      | _ => .error .notItems
    | "and" => do
      let items ← toConditions items
      return .all items
    | "or" => do
      let items ← toConditions items
      return .any items
    | _ => .error (.unknownCondition head)
  | .list _ => .error .conditionHead
  | _ => .error (.expectedList .condition)

/-- Reads a list of conditions, from left to right. -/
def toConditions : List Form → Except BuildError (List Condition)
  | [] => .ok []
  | form :: forms => do
    let first ← form.toCondition
    let others ← toConditions forms
    return first :: others

end

/-! ## Statements -/

mutual

/-- Reads a statement; `procedures` are the names that may be called. -/
def toStatement (procedures : List String) : Form → Except BuildError Statement
  | .list (.symbol head :: items) =>
    match head with
    | "move-forward" => toCommand .moveForward items
    | "move-backward" => toCommand .moveBackward items
    | "turn-left" => toCommand .turnLeft items
    | "turn-right" => toCommand .turnRight items
    | "finish" => toCommand .finish items
    | "turn" => toTurn items
    | "repeat" =>
      match items with
      | count :: body => do
        let times ← count.toCount
        let body ← toBody procedures body
        return .loop times body
      | [] => .error .missingCount
    | "while" =>
      match items with
      | condition :: body => do
        let condition ← condition.toCondition
        let body ← toBody procedures body
        return .whileHolds condition body
      | [] => .error (.missingCondition "while")
    | "until" =>
      match items with
      | condition :: body => do
        let condition ← condition.toCondition
        let body ← toBody procedures body
        return .whileHolds (.negation condition) body
      | [] => .error (.missingCondition "until")
    | "forever" => do
      let body ← toBody procedures items
      return .forever body
    | "if" =>
      match items with
      | condition :: body => do
        let condition ← condition.toCondition
        let body ← toBody procedures body
        return .branch [.mk condition body] none
      | [] => .error (.missingCondition "if")
    | "branch" => do
      let (arms, otherwise) ← toArms procedures items
      return .branch arms otherwise
    | "call" => toCall procedures items
    | "define" => .error (.notAtTop "define")
    | "program" => .error (.notAtTop "program")
    | _ => .error (.unknownStatement head)
  | .list _ => .error .statementHead
  | _ => .error (.expectedList .statement)

/-- Reads a list of statements, in order. -/
def toBody (procedures : List String) : List Form → Except BuildError (List Statement)
  | [] => .ok []
  | form :: forms => do
    let first ← form.toStatement procedures
    let others ← toBody procedures forms
    return first :: others

/-- Reads the arms of a branch, in order; nothing may follow the last resort. -/
def toArms (procedures : List String) :
    List Form → Except BuildError (List Arm × Option (List Statement))
  | [] => .ok ([], none)
  | .list (.symbol "when" :: items) :: forms =>
    match items with
    | condition :: body => do
      let condition ← condition.toCondition
      let body ← toBody procedures body
      let (arms, otherwise) ← toArms procedures forms
      return (.mk condition body :: arms, otherwise)
    | [] => .error (.missingCondition "when")
  | .list (.symbol "otherwise" :: body) :: forms => do
    let body ← toBody procedures body
    match forms with
    | [] => return ([], some body)
    | .list _ :: _ => .error .armAfterOtherwise
    | _ :: _ => .error (.expectedList .branchArm)
  | .list _ :: _ => .error .unknownArm
  | _ :: _ => .error (.expectedList .branchArm)

end

/-! ## Top level -/

/-- The items behind the head of a definition, if the form is one. -/
def definition? : Form → Option (List Form)
  | .list (.symbol "define" :: items) => some items
  | _ => none

/-- The items behind the head of a program form, if the form is one. -/
def program? : Form → Option (List Form)
  | .list (.symbol "program" :: items) => some items
  | _ => none

/-- Collects the definitions, in order, each with its name and the forms of its body. `names` are
the ones already taken. -/
def definitions (names : List String) : List Form → Except BuildError (List (String × List Form))
  | [] => .ok []
  | form :: forms =>
    match form.definition? with
    | none => definitions names forms
    | some [] => .error .unnamedDefinition
    | some (name :: body) => do
      let name ← name.toName
      if names.contains name then .error (.duplicateProcedure name)
      else do
        let others ← definitions (name :: names) forms
        return (name, body) :: others

/-- Reads the bodies of the definitions, in order. -/
def toProcedures (names : List String) :
    List (String × List Form) → Except BuildError (List Procedure)
  | [] => .ok []
  | (name, body) :: others => do
    let body ← toBody names body
    let others ← toProcedures names others
    return ⟨name, body⟩ :: others

/-- Reads the main statements: those at top level and those of the one program form.
`programSeen` tells whether that form came already. -/
def toMain (procedures : List String) (programSeen : Bool) :
    List Form → Except BuildError (List Statement)
  | [] => .ok []
  | form :: forms =>
    match form.definition?, form.program? with
    | some _, _ => toMain procedures programSeen forms
    | none, some items =>
      if programSeen then .error .secondProgram
      else
        match items with
        | [] => .error .unnamedProgram
        | _ :: body => do
          let body ← toBody procedures body
          let others ← toMain procedures true forms
          return body ++ others
    | none, none => do
      let first ← form.toStatement procedures
      let others ← toMain procedures programSeen forms
      return first :: others

end Form

/-- Builds the program that a list of forms describes. -/
def Program.ofForms (name : String) (forms : List Form) : Except BuildError Program := do
  let definitions ← Form.definitions [] forms
  let names := definitions.map Prod.fst
  let procedures ← Form.toProcedures names definitions
  let main ← Form.toMain names false forms
  return ⟨name, main, procedures⟩

end BlockPuzzle
