import Mathlib.Data.List.MinMax
import Mathlib.Tactic.Lemma
import BlockPuzzle.Program.Basic

/-!
# Looks of a program

A statement asks for a number of looks in conditions of its own (`Statement.looks`), besides those of the
statements in its bodies. `Program.statements` lists all statements, at any depth, and
`Program.entriesPerTick` is the most looks that one of them asks for, or one if none of them asks for
any.
-/

namespace BlockPuzzle

mutual

/-- How many looks a condition asks for, if no item decides it before the last one. -/
def Condition.looks : Condition → Nat
  | .literal _ => 0
  | .path _ _ => 1
  | .notDone => 0
  | .negation inner => inner.looks
  | .all items => conditionsLooks items
  | .any items => conditionsLooks items

/-- How many looks a list of conditions asks for. -/
def conditionsLooks : List Condition → Nat
  | [] => 0
  | c :: cs => c.looks + conditionsLooks cs

end

/-- How many looks the arms of a branch ask for, if none of them is chosen before the last one. -/
def armsLooks : List Arm → Nat
  | [] => 0
  | arm :: arms => arm.condition.looks + armsLooks arms

/-- How many looks a statement asks for in conditions of its own. -/
def Statement.looks : Statement → Nat
  | .command _ _ => 0
  | .loop _ _ => 0
  | .whileHolds condition _ => condition.looks
  | .forever _ => 0
  | .branch arms _ => armsLooks arms
  | .call _ => 0

mutual

/-- The statements in the bodies of a statement, at any depth. -/
def Statement.inner : Statement → List Statement
  | .command _ _ => []
  | .loop _ body => bodyStatements body
  | .whileHolds _ body => bodyStatements body
  | .forever body => bodyStatements body
  | .branch arms otherwise => armsStatements arms ++ otherwiseStatements otherwise
  | .call _ => []

/-- The statements of a body, at any depth. -/
def bodyStatements : List Statement → List Statement
  | [] => []
  | s :: ss => s :: (s.inner ++ bodyStatements ss)

def Arm.statements : Arm → List Statement
  | .mk _ body => bodyStatements body

def armsStatements : List Arm → List Statement
  | [] => []
  | a :: as => a.statements ++ armsStatements as

def otherwiseStatements : Option (List Statement) → List Statement
  | none => []
  | some body => bodyStatements body

end

namespace Program

/-- All statements of a program, at any depth. -/
def statements (program : Program) : List Statement :=
  bodyStatements program.main ++
    program.procedures.flatMap fun procedure => bodyStatements procedure.body

/-- The most entries that a tick of a program can add to a journal: one, or as many as there are looks
in the conditions of a statement. -/
def entriesPerTick (program : Program) : Nat :=
  (program.statements.map Statement.looks).foldr max 1

end Program

variable {statement : Statement} {body : List Statement}

/-- The statements of a body are there with all that is inside of them. -/
lemma subset_bodyStatements (mem : statement ∈ body) :
    statement :: statement.inner ⊆ bodyStatements body := by
  induction body with
  | nil => cases mem
  | cons first others ih =>
    rw [bodyStatements, ← List.cons_append]
    cases mem with
    | head => exact List.subset_append_left _ _
    | tail _ mem => exact List.subset_append_of_subset_right _ (ih mem)

/-- So are the bodies of a chain of arms. -/
lemma subset_armsStatements {arm : Arm} {arms : List Arm} (mem : arm ∈ arms) :
    bodyStatements arm.body ⊆ armsStatements arms := by
  induction arms with
  | nil => cases mem
  | cons first others ih =>
    rw [armsStatements]
    cases mem with
    | head =>
      cases arm
      exact List.subset_append_left _ _
    | tail _ mem => exact List.subset_append_of_subset_right _ (ih mem)

/-- So are the procedures of a program. -/
lemma Program.subset_statements {program : Program} {procedure : Procedure}
    (mem : procedure ∈ program.procedures) : bodyStatements procedure.body ⊆ program.statements :=
  fun _ inside => List.mem_append_right _ (List.mem_flatMap.2 ⟨procedure, mem, inside⟩)

/-- No statement asks for more looks than a tick of its program can add entries. -/
lemma Program.looks_le {program : Program} (mem : statement ∈ program.statements) :
    statement.looks ≤ program.entriesPerTick :=
  List.le_max_of_le' 1 (List.mem_map_of_mem mem) (Nat.le_refl _)

/-- A tick can always leave one entry. -/
lemma Program.one_le_entriesPerTick (program : Program) : 1 ≤ program.entriesPerTick := by
  unfold entriesPerTick
  induction program.statements.map Statement.looks with
  | nil => exact Nat.le_refl 1
  | cons looks others ih => exact le_max_of_le_right ih

/-- All arms of a branch count together, but a body counts for itself. -/
example : Program.entriesPerTick ⟨"", [.branch [.mk (.path .ahead "a") [],
    .mk (.any [.notDone, .path .left "b"]) [.whileHolds (.path .right "c") []]] none], []⟩ = 2 := by
  decide

end BlockPuzzle
