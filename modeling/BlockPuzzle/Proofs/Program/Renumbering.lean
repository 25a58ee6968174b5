import BlockPuzzle.Program.Basic
import Mathlib.Data.List.Nodup
import Mathlib.Tactic.Lemma

/-!
# Renumbering procedures

Statements call procedures by their place in the program. When the procedures change places, the calls
can follow them: `Statement.renumbered`. Nothing but calls changes, so the blocks stay the same, and
so does the number of distinct ones in a program whose procedures have been moved about
(`Program.Renumbers.length_blockIds`).
-/

namespace BlockPuzzle

section

variable (place : Nat → Nat)

mutual

/-- The statement with its calls at other places. -/
def Statement.renumbered : Statement → Statement
  | .command command block => .command command block
  | .loop times body => .loop times (bodyRenumbered body)
  | .whileHolds condition body => .whileHolds condition (bodyRenumbered body)
  | .forever body => .forever (bodyRenumbered body)
  | .branch arms otherwise => .branch (armsRenumbered arms) (otherwiseRenumbered otherwise)
  | .call procedure => .call (place procedure)

def bodyRenumbered : List Statement → List Statement
  | [] => []
  | s :: ss => s.renumbered :: bodyRenumbered ss

def Arm.renumbered : Arm → Arm
  | .mk condition body => .mk condition (bodyRenumbered body)

def armsRenumbered : List Arm → List Arm
  | [] => []
  | a :: as => a.renumbered :: armsRenumbered as

def otherwiseRenumbered : Option (List Statement) → Option (List Statement)
  | none => none
  | some body => some (bodyRenumbered body)

end

/-- The procedure with its calls at other places. -/
def Procedure.renumbered (procedure : Procedure) : Procedure :=
  { procedure with body := bodyRenumbered place procedure.body }

/-- A body is renumbered one statement after the other. -/
lemma bodyRenumbered_eq_map (body : List Statement) :
    bodyRenumbered place body = body.map (Statement.renumbered place) := by
  induction body with
  | nil => rfl
  | cons statement body ih => rw [bodyRenumbered, ih, List.map_cons]

/-- A last resort is renumbered as a body is, if there is one. -/
lemma otherwiseRenumbered_eq_map (otherwise : Option (List Statement)) :
    otherwiseRenumbered place otherwise = otherwise.map (bodyRenumbered place) := by
  cases otherwise <;> rfl

/-- The condition of an arm has no numbers. -/
lemma Arm.condition_renumbered (arm : Arm) : (arm.renumbered place).condition = arm.condition := by
  cases arm
  rfl

/-- The body of an arm is renumbered. -/
lemma Arm.body_renumbered (arm : Arm) :
    (arm.renumbered place).body = bodyRenumbered place arm.body := by
  cases arm
  rfl

/-! ## Blocks -/

mutual

/-- A statement keeps its blocks when it is renumbered. -/
theorem Statement.blocks_renumbered : ∀ statement : Statement,
    (statement.renumbered place).blocks = statement.blocks
  | .command .. => rfl
  | .loop _ body => bodyBlocks_renumbered body
  | .whileHolds condition body =>
    congrArg (condition.blocks ++ ·) (bodyBlocks_renumbered body)
  | .forever body => bodyBlocks_renumbered body
  | .branch arms otherwise =>
    congrArg₂ (· ++ ·) (armsBlocks_renumbered arms) (otherwiseBlocks_renumbered otherwise)
  | .call _ => rfl

/-- So does a body. -/
theorem bodyBlocks_renumbered : ∀ body : List Statement,
    bodyBlocks (bodyRenumbered place body) = bodyBlocks body
  | [] => rfl
  | s :: ss => congrArg₂ (· ++ ·) s.blocks_renumbered (bodyBlocks_renumbered ss)

/-- So does an arm. -/
theorem Arm.blocks_renumbered : ∀ arm : Arm, (arm.renumbered place).blocks = arm.blocks
  | .mk condition body => congrArg (condition.blocks ++ ·) (bodyBlocks_renumbered body)

/-- So does a chain of arms. -/
theorem armsBlocks_renumbered : ∀ arms : List Arm,
    armsBlocks (armsRenumbered place arms) = armsBlocks arms
  | [] => rfl
  | a :: as => congrArg₂ (· ++ ·) a.blocks_renumbered (armsBlocks_renumbered as)

/-- So does the last resort. -/
theorem otherwiseBlocks_renumbered : ∀ otherwise : Option (List Statement),
    otherwiseBlocks (otherwiseRenumbered place otherwise) = otherwiseBlocks otherwise
  | none => rfl
  | some body => bodyBlocks_renumbered body

end

end

/-! ## Programs -/

/-- Each procedure of the first list stands at its place in the second one, with the calls renumbered;
where the first one has none, the second one has none either. -/
structure Procedures.Placed (place : Nat → Nat) (procedures procedures' : List Procedure) :
    Prop where
  found : ∀ {index procedure}, procedures[index]? = some procedure →
    procedures'[place index]? = some (procedure.renumbered place)
  missing : ∀ {index}, procedures[index]? = none →
    place index = index ∧ procedures'[index]? = none

/-- Two programs are the same but for the places of their procedures. -/
structure Program.Renumbers (place : Nat → Nat) (program program' : Program) : Prop where
  name : program'.name = program.name
  main : program'.main = bodyRenumbered place program.main
  placed : Procedures.Placed place program.procedures program'.procedures
  perm : program'.procedures.Perm (program.procedures.map (Procedure.renumbered place))

/-- No block is left twice. -/
lemma nodup_eraseDups (blocks : List BlockId) : blocks.eraseDups.Nodup := by
  cases blocks with
  | nil => exact .nil
  | cons block blocks =>
    rw [List.eraseDups_cons, List.nodup_cons, List.mem_eraseDups]
    exact ⟨by simp, nodup_eraseDups _⟩
termination_by blocks.length
decreasing_by exact Nat.lt_succ_of_le (List.length_filter_le _ _)

/-- They have as many distinct blocks. -/
theorem Program.Renumbers.length_blockIds {place : Nat → Nat} {program program' : Program}
    (renumbers : program.Renumbers place program') :
    program'.blockIds.length = program.blockIds.length := by
  have same : (program.procedures.map (Procedure.renumbered place)).flatMap
      (fun procedure => bodyBlocks procedure.body) =
      program.procedures.flatMap fun procedure => bodyBlocks procedure.body := by
    rw [List.flatMap_map]
    apply List.flatMap_congr
    intro procedure _
    exact bodyBlocks_renumbered place procedure.body
  have perm : program'.blocks.Perm program.blocks := by
    unfold Program.blocks
    rw [renumbers.main, bodyBlocks_renumbered, ← same]
    exact (renumbers.perm.flatMap_right _).append_left _
  have distinct : program'.blocks.eraseDups.Perm program.blocks.eraseDups := by
    apply (List.perm_ext_iff_of_nodup (nodup_eraseDups _) (nodup_eraseDups _)).2
    intro block
    rw [List.mem_eraseDups, List.mem_eraseDups]
    exact perm.mem_iff
  unfold blockIds
  rw [List.length_mergeSort, List.length_mergeSort]
  exact distinct.length_eq

end BlockPuzzle
