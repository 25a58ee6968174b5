import BlockPuzzle.Proofs.Program.Building

/-!
# Printing programs

Every program can be written as forms: its procedures as definitions, and then its main statements.
If its procedures have distinct names, its blocks are not empty and it calls no others, these forms
are a script by the documented rules, and what is built from them is the program again:
`Program.ofForms_toForms`.
-/

namespace BlockPuzzle

/-! ## Calls of a program -/

mutual

/-- Procedures that a statement calls, in order of appearance. -/
def Statement.calls : Statement → List Nat
  | .command .. => []
  | .loop _ body => bodyCalls body
  | .whileHolds _ body => bodyCalls body
  | .forever body => bodyCalls body
  | .branch arms otherwise => armsCalls arms ++ otherwiseCalls otherwise
  | .call procedure => [procedure]

def bodyCalls : List Statement → List Nat
  | [] => []
  | s :: ss => s.calls ++ bodyCalls ss

def Arm.calls : Arm → List Nat
  | .mk _ body => bodyCalls body

def armsCalls : List Arm → List Nat
  | [] => []
  | a :: as => a.calls ++ armsCalls as

def otherwiseCalls : Option (List Statement) → List Nat
  | none => []
  | some body => bodyCalls body

end

/-- Every procedure that a program calls, once for each call. -/
def Program.calls (program : Program) : List Nat :=
  bodyCalls program.main ++ program.procedures.flatMap fun procedure => bodyCalls procedure.body

/-! ## Forms of a program -/

/-- The word for a look to one side. -/
def Side.word : Side → String
  | .ahead => "path-ahead"
  | .right => "path-right"
  | .behind => "path-behind"
  | .left => "path-left"

section

variable (write : String → Form) (names : List String)

/-- A command with its block; `write` says how names and blocks are written. -/
def Command.toForm (block : BlockId) : Command → Form
  | .moveForward => .list [.symbol "move-forward", write block]
  | .moveBackward => .list [.symbol "move-backward", write block]
  | .turnLeft => .list [.symbol "turn-left", write block]
  | .turnRight => .list [.symbol "turn-right", write block]
  | .face target => .list [.symbol "turn", write target.name, write block]
  | .finish => .list [.symbol "finish", write block]

mutual

/-- A condition as it is written. -/
def Condition.toForm : Condition → Form
  | .literal value => .boolean value
  | .path side block => .list [.symbol side.word, write block]
  | .notDone => .list [.symbol "not-done"]
  | .negation inner => .list [.symbol "not", inner.toForm]
  | .all items => .list (.symbol "and" :: conditionForms items)
  | .any items => .list (.symbol "or" :: conditionForms items)

def conditionForms : List Condition → List Form
  | [] => []
  | c :: cs => c.toForm :: conditionForms cs

end

mutual

/-- A statement as it is written; `names` are those of the procedures. -/
def Statement.toForm : Statement → Form
  | .command command block => command.toForm write block
  | .loop times body => .list (.symbol "repeat" :: .integer times.toNat :: bodyForms body)
  | .whileHolds condition body =>
    .list (.symbol "while" :: condition.toForm write :: bodyForms body)
  | .forever body => .list (.symbol "forever" :: bodyForms body)
  | .branch arms otherwise =>
    .list (.symbol "branch" :: (armForms arms ++ otherwiseForms otherwise))
  | .call procedure => .list [.symbol "call", write (names[procedure]?.getD "")]

def bodyForms : List Statement → List Form
  | [] => []
  | s :: ss => s.toForm :: bodyForms ss

def Arm.toForm : Arm → Form
  | .mk condition body => .list (.symbol "when" :: condition.toForm write :: bodyForms body)

def armForms : List Arm → List Form
  | [] => []
  | a :: as => a.toForm :: armForms as

def otherwiseForms : Option (List Statement) → List Form
  | none => []
  | some body => [.list (.symbol "otherwise" :: bodyForms body)]

end

/-- A procedure as it is written: a definition of its name. -/
def Procedure.toForm (procedure : Procedure) : Form :=
  .list (.symbol "define" :: write procedure.name :: bodyForms write names procedure.body)

/-- A program as it is written: its procedures, and then its main statements. -/
def Program.toForms (program : Program) : List Form :=
  let names := program.procedures.map Procedure.name
  program.procedures.map (Procedure.toForm write names) ++ bodyForms write names program.main

end

/-! ## Printed forms stand for what was printed -/

open Form (IsCondition IsStatement IsArms)

section

variable {write : String → Form} {names : List String} {rules : Rules}

/-- Every text is written as a symbol or as a quoted text. -/
def WritesNames (write : String → Form) : Prop :=
  ∀ text, (write text).name? = some text

/-- What is written for a block is that block. -/
lemma isBlock_write (writes : WritesNames write) {block : BlockId} (named : block ≠ "") :
    (write block).IsBlock block :=
  ⟨writes block, named⟩

/-- What is written for a bearing is that bearing. -/
lemma isBearing_write (writes : WritesNames write) (bearing : Bearing) :
    (write bearing.name).IsBearing bearing := by
  refine ⟨bearing.name, writes bearing.name, ?_⟩
  cases bearing <;> decide +kernel

/-- What is written for a command is that command. -/
lemma Command.isStatement_toForm (writes : WritesNames write) {block : BlockId}
    (named : block ≠ "") (command : Command) :
    IsStatement rules names (command.toForm write block) (.command command block) := by
  have isBlock := isBlock_write writes named
  cases command with
  | face target => exact .turn (isBearing_write writes target) isBlock
  | _ => exact .command (by decide) isBlock

mutual

/-- What is written for a condition is that condition. -/
theorem Condition.isCondition_toForm (writes : WritesNames write) : ∀ condition : Condition,
    (∀ block ∈ condition.blocks, block ≠ "") →
    IsCondition rules (condition.toForm write) condition
  | .literal _, _ => .literal
  | .path side block, named => by
    have mem : (side.word, side) ∈ pathWords := by cases side <;> decide
    exact .path mem (isBlock_write writes (named block List.mem_cons_self))
  | .notDone, _ => .notDone fun _ => rfl
  | .negation inner, named => .negation (inner.isCondition_toForm writes named)
  | .all items, named => .all (conditionForms_are writes items named)
  | .any items, named => .any (conditionForms_are writes items named)

/-- What is written for a list of conditions is that list. -/
theorem conditionForms_are (writes : WritesNames write) : ∀ items : List Condition,
    (∀ block ∈ conditionsBlocks items, block ≠ "") →
    List.Forall₂ (IsCondition rules) (conditionForms write items) items
  | [], _ => .nil
  | c :: cs, named => by
    obtain ⟨first, others⟩ := List.forall_mem_append.1 named
    exact .cons (c.isCondition_toForm writes first) (conditionForms_are writes cs others)

end

mutual

/-- What is written for a statement is that statement. -/
theorem Statement.isStatement_toForm (writes : WritesNames write) : ∀ statement : Statement,
    (∀ block ∈ statement.blocks, block ≠ "") →
    (∀ index ∈ statement.calls, index < names.length) →
    IsStatement rules names (statement.toForm write names) statement
  | .command command block, named, _ =>
    command.isStatement_toForm writes (named block List.mem_cons_self)
  | .loop _ body, named, within => .loop (bodyForms_are writes body named within)
  | .whileHolds condition body, named, within => by
    obtain ⟨tests, does⟩ := List.forall_mem_append.1 named
    exact .whileHolds (condition.isCondition_toForm writes tests)
      (bodyForms_are writes body does within)
  | .forever body, named, within => .forever (bodyForms_are writes body named within)
  | .branch arms otherwise, named, within => by
    obtain ⟨guarded, last⟩ := List.forall_mem_append.1 named
    obtain ⟨guarded', last'⟩ := List.forall_mem_append.1 within
    exact .branch (armForms_are writes arms guarded guarded'
      (otherwiseForms_are writes otherwise last last'))
  | .call index, _, within => by
    have found := List.getElem?_eq_getElem (within index List.mem_cons_self)
    refine .call (writes _) ?_
    rw [found]
    rfl

/-- What is written for a body is that body. -/
theorem bodyForms_are (writes : WritesNames write) : ∀ body : List Statement,
    (∀ block ∈ bodyBlocks body, block ≠ "") →
    (∀ index ∈ bodyCalls body, index < names.length) →
    List.Forall₂ (IsStatement rules names) (bodyForms write names body) body
  | [], _, _ => .nil
  | s :: ss, named, within => by
    obtain ⟨first, others⟩ := List.forall_mem_append.1 named
    obtain ⟨first', others'⟩ := List.forall_mem_append.1 within
    exact .cons (s.isStatement_toForm writes first first') (bodyForms_are writes ss others others')

/-- What is written for an arm is its condition and its body. -/
theorem Arm.forms_are (writes : WritesNames write) : ∀ arm : Arm,
    (∀ block ∈ arm.blocks, block ≠ "") →
    (∀ index ∈ arm.calls, index < names.length) →
    IsCondition rules (arm.condition.toForm write) arm.condition ∧
      List.Forall₂ (IsStatement rules names) (bodyForms write names arm.body) arm.body
  | .mk condition body, named, within => by
    obtain ⟨tests, does⟩ := List.forall_mem_append.1 named
    exact ⟨condition.isCondition_toForm writes tests, bodyForms_are writes body does within⟩

/-- What is written for a chain of arms is that chain, with any last resort behind it. -/
theorem armForms_are (writes : WritesNames write) : ∀ arms : List Arm,
    (∀ block ∈ armsBlocks arms, block ≠ "") →
    (∀ index ∈ armsCalls arms, index < names.length) →
    -- what follows the arms is the last resort
    ∀ {forms otherwise}, IsArms rules names forms [] otherwise →
    IsArms rules names (armForms write names arms ++ forms) arms otherwise
  | [], _, _, _, _, last => last
  | arm :: arms, named, within, _, _, last => by
    obtain ⟨first, others⟩ := List.forall_mem_append.1 named
    obtain ⟨first', others'⟩ := List.forall_mem_append.1 within
    obtain ⟨tests, does⟩ := arm.forms_are writes first first'
    cases arm with
    | mk condition body => exact .when tests does (armForms_are writes arms others others' last)

/-- What is written for the last resort is that last resort. -/
theorem otherwiseForms_are (writes : WritesNames write) : ∀ otherwise : Option (List Statement),
    (∀ block ∈ otherwiseBlocks otherwise, block ≠ "") →
    (∀ index ∈ otherwiseCalls otherwise, index < names.length) →
    IsArms rules names (otherwiseForms write names otherwise) [] otherwise
  | none, _, _ => .none
  | some body, named, within => .otherwise (bodyForms_are writes body named within)

end

/-! ## The builder undoes the printer -/

/-- What a program needs in order to be written: distinct names, blocks that are not empty, and calls
of its own procedures only. -/
structure Program.Printable (program : Program) : Prop where
  names : (program.procedures.map Procedure.name).Nodup
  blocks : ∀ block ∈ program.blocks, block ≠ ""
  calls : ∀ index ∈ program.calls, index < program.procedures.length

/-- Statements alone are the main statements that they stand for. -/
lemma isMain_of_statements {forms : List Form} {main : List Statement}
    (are : List.Forall₂ (IsStatement rules names) forms main) :
    Form.IsMain rules names forms main := by
  induction are with
  | nil => exact .nil
  | cons is _ ih => exact .statement is ih

/-- Definitions before them change nothing. -/
lemma isMain_of_definitions {procedures : List Procedure} {forms : List Form}
    {main : List Statement} (are : Form.IsMain rules names forms main) :
    Form.IsMain rules names (procedures.map (Procedure.toForm write names) ++ forms) main := by
  induction procedures with
  | nil => exact are
  | cons procedure procedures ih => exact .define ih

/-- The definitions among the forms of a program are those of its procedures, and there is no form
`program`. -/
lemma Program.filterMap_toForms (write : String → Form) (names : List String)
    (procedures : List Procedure) {forms : List Form}
    (heads : ∀ form ∈ forms, form.definition? = none ∧ form.program? = none) :
    (procedures.map (Procedure.toForm write names) ++ forms).filterMap Form.definition? =
        procedures.map (fun procedure =>
          write procedure.name :: bodyForms write names procedure.body) ∧
      (procedures.map (Procedure.toForm write names) ++ forms).filterMap Form.program? = [] := by
  constructor
  · rw [List.filterMap_append, List.filterMap_eq_nil_iff.2 fun form mem => (heads form mem).1,
      List.append_nil, List.filterMap_map, ← List.filterMap_eq_map]
    rfl
  · refine List.filterMap_eq_nil_iff.2 fun form mem => ?_
    obtain mem | mem := List.mem_append.1 mem
    · obtain ⟨procedure, -, rfl⟩ := List.mem_map.1 mem
      rfl
    · exact (heads form mem).2

/-- The forms of a program are a script, and stand for the program. -/
theorem Program.isScript_toForms (writes : WritesNames write) {program : Program}
    (printable : program.Printable) : Form.IsScript rules (program.toForms write) program := by
  obtain ⟨main, procedures⟩ := List.forall_mem_append.1 printable.blocks
  obtain ⟨main', procedures'⟩ := List.forall_mem_append.1 printable.calls
  rw [← List.length_map Procedure.name] at main' procedures'
  have are : List.Forall₂ (IsStatement rules _) (bodyForms write _ program.main) program.main :=
    bodyForms_are writes program.main main main'
  obtain ⟨definitions, none⟩ := filterMap_toForms write _ program.procedures
    (Form.forall_mem_of_forall₂ (fun _ _ _ is => is.head) are)
  refine ⟨printable.names, ?_, ?_, isMain_of_definitions (isMain_of_statements are)⟩
  · rw [toForms, definitions]
    refine List.forall₂_map_left_iff.2 (List.forall₂_same.2 fun procedure mem => ?_)
    refine ⟨_, _, rfl, writes procedure.name, bodyForms_are writes procedure.body ?_ ?_⟩
    · exact fun block mem' => procedures block (List.mem_flatMap_of_mem mem mem')
    · exact fun index mem' => procedures' index (List.mem_flatMap_of_mem mem mem')
  · rw [toForms, none]
    exact Nat.zero_le _

/-- What is built from the forms of a program is the program, however its names are written. -/
theorem Program.ofForms_toForms (writes : WritesNames write) {program : Program}
    (printable : program.Printable) :
    ofForms program.name (program.toForms write) = .ok program := by
  have script : Form.IsScript .documented (program.toForms write) program :=
    isScript_toForms writes printable
  exact ofForms_complete script

/-- Two procedures that call each other, an arm with a last resort that is empty, and a branch
without arms. -/
theorem Program.ofForms_toForms_door :
    let program : Program := ⟨"door",
      [.whileHolds (.negation (.path .ahead "b1")) [.loop 2 [.call 1], .branch [] none]],
      [⟨"hop", [.branch [.mk (.all [.literal true, .notDone]) [.call 1]] (some [])]⟩,
        ⟨"skip", [.command (.face .southEast) "b2", .forever [.call 0]]⟩]⟩
    WritesNames .symbol ∧ program.Printable ∧
      program.toForms .symbol =
        [.list [.symbol "define", .symbol "hop", .list [.symbol "branch",
            .list [.symbol "when", .list [.symbol "and", .boolean true, .list [.symbol "not-done"]],
              .list [.symbol "call", .symbol "skip"]],
            .list [.symbol "otherwise"]]],
          .list [.symbol "define", .symbol "skip",
            .list [.symbol "turn", .symbol "south-east", .symbol "b2"],
            .list [.symbol "forever", .list [.symbol "call", .symbol "hop"]]],
          .list [.symbol "while", .list [.symbol "not", .list [.symbol "path-ahead", .symbol "b1"]],
            .list [.symbol "repeat", .integer 2, .list [.symbol "call", .symbol "skip"]],
            .list [.symbol "branch"]]] ∧
      ofForms "door" (program.toForms .symbol) = .ok program := by
  intro program
  have writes : WritesNames .symbol := fun _ => rfl
  have printable : program.Printable := ⟨by decide, by decide, by decide⟩
  exact ⟨writes, printable, rfl, ofForms_toForms writes printable⟩

end

end BlockPuzzle
