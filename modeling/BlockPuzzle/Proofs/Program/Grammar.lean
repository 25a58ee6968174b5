import Mathlib.Data.List.Forall2
import Mathlib.Tactic.Lemma
import BlockPuzzle.Program.Build

/-!
# The grammar of scripts

`Form.IsScript` says which forms are a script and which program they stand for. Each rule of it is a
production of the grammar, together with what is built from it.

There are two versions of the grammar, which differ in two rules. In the one that is documented
nothing may stand behind `not-done`, and the second item of a form `program` is a name.
-/

namespace BlockPuzzle

/-! ## Words -/

/-- Which rules are meant: those that are documented, or lenient ones, by which the items behind
`not-done` and the item in the place of the name of a script may be anything. -/
inductive Rules where
  | documented
  | lenient

/-- The spellings of a bearing in lower case: its letters, its name, and its name without a hyphen. -/
def Bearing.spellings (bearing : Bearing) : List String :=
  [bearing.abbreviation.toLower, bearing.name,
    String.ofList (bearing.name.toList.filter fun c => c != '-')]

/-- The commands that need nothing but a block. -/
def commandWords : List (String × Command) :=
  [("move-forward", .moveForward), ("move-backward", .moveBackward), ("turn-left", .turnLeft),
    ("turn-right", .turnRight), ("finish", .finish)]

/-- The conditions that look to one side. -/
def pathWords : List (String × Side) :=
  [("path-ahead", .ahead), ("path-right", .right), ("path-behind", .behind), ("path-left", .left)]

namespace Form

/-- A form stands for a block: a symbol or a quoted text that is not empty. -/
def IsBlock (form : Form) (block : BlockId) : Prop :=
  form.name? = some block ∧ block ≠ ""

/-- A form spells a bearing, in any mix of upper and lower case. -/
def IsBearing (form : Form) (bearing : Bearing) : Prop :=
  ∃ text, form.name? = some text ∧ text.toLower ∈ bearing.spellings

/-! ## Productions -/

/-- A form is a condition, with what it stands for. -/
inductive IsCondition (rules : Rules) : Form → Condition → Prop where
  | literal {value : Bool} :
    IsCondition rules (.boolean value) (.literal value)
  | path {word : String} {side : Side} {form : Form} {block : BlockId} :
    (word, side) ∈ pathWords →
    form.IsBlock block →
    IsCondition rules (.list [.symbol word, form]) (.path side block)
  | notDone {ignored : List Form} :
    (rules = .documented → ignored = []) →
    IsCondition rules (.list (.symbol "not-done" :: ignored)) .notDone
  | negation {form : Form} {inner : Condition} :
    IsCondition rules form inner →
    IsCondition rules (.list [.symbol "not", form]) (.negation inner)
  | all {forms : List Form} {items : List Condition} :
    List.Forall₂ (IsCondition rules) forms items →
    IsCondition rules (.list (.symbol "and" :: forms)) (.all items)
  | any {forms : List Form} {items : List Condition} :
    List.Forall₂ (IsCondition rules) forms items →
    IsCondition rules (.list (.symbol "or" :: forms)) (.any items)

mutual

/-- A form is a statement, with what it stands for; `procedures` are the names that can be called. -/
inductive IsStatement (rules : Rules) (procedures : List String) : Form → Statement → Prop where
  | command {word : String} {command : Command} {form : Form} {block : BlockId} :
    (word, command) ∈ commandWords →
    form.IsBlock block →
    IsStatement rules procedures (.list [.symbol word, form]) (.command command block)
  | turn {target form : Form} {bearing : Bearing} {block : BlockId} :
    target.IsBearing bearing →
    form.IsBlock block →
    IsStatement rules procedures (.list [.symbol "turn", target, form])
      (.command (.face bearing) block)
  | loop {times : UInt32} {forms : List Form} {body : List Statement} :
    List.Forall₂ (IsStatement rules procedures) forms body →
    IsStatement rules procedures (.list (.symbol "repeat" :: .integer times.toNat :: forms))
      (.loop times body)
  | whileHolds {form : Form} {forms : List Form} {condition : Condition} {body : List Statement} :
    form.IsCondition rules condition →
    List.Forall₂ (IsStatement rules procedures) forms body →
    IsStatement rules procedures (.list (.symbol "while" :: form :: forms))
      (.whileHolds condition body)
  | untilHolds {form : Form} {forms : List Form} {condition : Condition} {body : List Statement} :
    form.IsCondition rules condition →
    List.Forall₂ (IsStatement rules procedures) forms body →
    IsStatement rules procedures (.list (.symbol "until" :: form :: forms))
      (.whileHolds (.negation condition) body)
  | forever {forms : List Form} {body : List Statement} :
    List.Forall₂ (IsStatement rules procedures) forms body →
    IsStatement rules procedures (.list (.symbol "forever" :: forms)) (.forever body)
  | single {form : Form} {forms : List Form} {condition : Condition} {body : List Statement} :
    form.IsCondition rules condition →
    List.Forall₂ (IsStatement rules procedures) forms body →
    IsStatement rules procedures (.list (.symbol "if" :: form :: forms))
      (.branch [.mk condition body] none)
  | branch {forms : List Form} {arms : List Arm} {otherwise : Option (List Statement)} :
    IsArms rules procedures forms arms otherwise →
    IsStatement rules procedures (.list (.symbol "branch" :: forms)) (.branch arms otherwise)
  | call {form : Form} {name : String} {index : Nat} :
    form.name? = some name →
    procedures[index]? = some name →
    IsStatement rules procedures (.list [.symbol "call", form]) (.call index)

/-- Forms are the arms of a branch, with what they stand for. -/
inductive IsArms (rules : Rules) (procedures : List String) :
    List Form → List Arm → Option (List Statement) → Prop where
  | none :
    IsArms rules procedures [] [] none
  | otherwise {forms : List Form} {body : List Statement} :
    List.Forall₂ (IsStatement rules procedures) forms body →
    IsArms rules procedures [.list (.symbol "otherwise" :: forms)] [] (some body)
  | when {form : Form} {forms arms : List Form} {condition : Condition} {body : List Statement}
      {others : List Arm} {otherwise : Option (List Statement)} :
    form.IsCondition rules condition →
    List.Forall₂ (IsStatement rules procedures) forms body →
    IsArms rules procedures arms others otherwise →
    IsArms rules procedures (.list (.symbol "when" :: form :: forms) :: arms)
      (.mk condition body :: others) otherwise

end

/-- A form with a name and statements behind it defines a procedure. -/
def IsDefinition (rules : Rules) (procedures : List String) (items : List Form)
    (procedure : Procedure) : Prop :=
  ∃ form forms, items = form :: forms ∧ form.name? = some procedure.name ∧
    List.Forall₂ (IsStatement rules procedures) forms procedure.body

/-- Forms at top level, with the main statements that they stand for. -/
inductive IsMain (rules : Rules) (procedures : List String) :
    List Form → List Statement → Prop where
  | nil :
    IsMain rules procedures [] []
  | define {items forms : List Form} {main : List Statement} :
    IsMain rules procedures forms main →
    IsMain rules procedures (.list (.symbol "define" :: items) :: forms) main
  | program {name : Form} {items forms : List Form} {body main : List Statement} :
    (rules = .documented → name.name?.isSome) →
    List.Forall₂ (IsStatement rules procedures) items body →
    IsMain rules procedures forms main →
    IsMain rules procedures (.list (.symbol "program" :: name :: items) :: forms) (body ++ main)
  | statement {form : Form} {forms : List Form} {statement : Statement} {main : List Statement} :
    IsStatement rules procedures form statement →
    IsMain rules procedures forms main →
    IsMain rules procedures (form :: forms) (statement :: main)

/-- Forms are a script, with the program that they stand for: definitions of procedures whose names
are distinct, at most one form `program`, and statements. -/
structure IsScript (rules : Rules) (forms : List Form) (program : Program) : Prop where
  distinct : (program.procedures.map Procedure.name).Nodup
  procedures : List.Forall₂ (IsDefinition rules (program.procedures.map Procedure.name))
    (forms.filterMap definition?) program.procedures
  once : (forms.filterMap program?).length ≤ 1
  main : IsMain rules (program.procedures.map Procedure.name) forms program.main

/-! ## Induction -/

/-- A form occurs in a list, at any depth. -/
inductive Within : Form → List Form → Prop where
  | item {form : Form} {items : List Form} :
    form ∈ items →
    Within form items
  | deeper {form : Form} {inner items : List Form} :
    .list inner ∈ items →
    Within form inner →
    Within form items

/-- What is within the last items is within all of them. -/
lemma Within.tail {form first : Form} {items : List Form} (within : Within form items) :
    Within form (first :: items) := by
  cases within with
  | item mem => exact .item (List.mem_cons_of_mem _ mem)
  | deeper mem within => exact .deeper (List.mem_cons_of_mem _ mem) within

/-- What is within items is smaller than they are. -/
lemma Within.sizeOf_lt {form : Form} {items : List Form} (within : Within form items) :
    sizeOf form < sizeOf items := by
  induction within with
  | item mem => exact List.sizeOf_lt_of_mem mem
  | deeper mem _ ih =>
    have := List.sizeOf_lt_of_mem mem
    rw [list.sizeOf_spec] at this
    omega

/-- What holds of a list if it holds of all forms in it, at any depth, holds of every form. -/
@[elab_as_elim, induction_eliminator]
theorem induction {P : Form → Prop} (symbol : ∀ name, P (.symbol name))
    (text : ∀ value, P (.text value)) (integer : ∀ value, P (.integer value))
    (boolean : ∀ value, P (.boolean value))
    (list : ∀ items, (∀ form, Within form items → P form) → P (.list items)) (form : Form) :
    P form :=
  match form with
  | .symbol name => symbol name
  | .text value => text value
  | .integer value => integer value
  | .boolean value => boolean value
  | .list items => list items fun form within =>
    have := within.sizeOf_lt
    induction symbol text integer boolean list form
termination_by sizeOf form
decreasing_by
  rw [Form.list.sizeOf_spec]
  omega

end Form

end BlockPuzzle
