import BlockPuzzle.Attempt.Walk
import BlockPuzzle.Proofs.Machine.Renumbering
import BlockPuzzle.Proofs.Machine.Tick

/-!
# Performances of renumbered programs

`Attempt.perform` walks a program that has been built, and settles the attempt; it is what the execution
of a script does once the script has been compiled. It does not matter at which places the procedures
of the program stand: `Attempt.perform_renumbers`.
-/

namespace BlockPuzzle

open Procedures (Placed)

/-- A walk goes the same way when the procedures have changed places. -/
theorem Walk.run_renumbered {place : Nat → Nat} {procedures : List Procedure} {machine : Machine}
    (placed : Placed place machine.procedures procedures) (board : Board) (rule : SenseRule)
    (budget ticks : Nat) (walk : Walk) :
    run board rule budget ticks (machine.renumbered place procedures) walk =
      run board rule budget ticks machine walk := by
  induction budget generalizing ticks machine walk with
  | zero =>
    unfold run
    rw [Machine.hasWork_renumbered]
  | succ budget ih =>
    unfold run
    rw [Machine.hasWork_renumbered, Machine.tick_renumbered placed]
    by_cases work : machine.hasWork = true
    · rw [if_pos work, if_pos work]
      -- the machine keeps its procedures, so they still stand at the same places
      have kept := (machine.ticks (host board rule) walk).procedures
      simp only [Tick.renumbered]
      generalize machine.tick (host board rule) walk = tick at kept
      cases tick.report with
      | ok progress => exact ih (kept.symm ▸ placed) (ticks + 1) tick.host
      | error fault => rfl
    · rw [if_neg work, if_neg work]

namespace Attempt

/-- Walks a program and settles the attempt. -/
def perform (attempt : Attempt) (board : Board) (settings : Settings) (script : String)
    (program : Program) : Report × Attempt :=
  let machine := Machine.load program settings.maxCallDepth.toNat
  let (ending, ticks, walk) :=
    Walk.run board settings.senseRule settings.tickBudget.toNat 0 machine (Walk.start attempt)
  walk.attempt.conclude board script program.name ending ticks walk.divergences

variable (attempt : Attempt) (board : Board) (settings : Settings) {script : String}

/-- A script that compiles is executed by performing its program. -/
lemma execute_eq_perform {program : Program} (compiles : Program.compile script = .ok program) :
    attempt.execute board settings script = attempt.perform board settings script program := by
  unfold execute
  rw [compiles]
  rfl

/-- The text of a script shows in the digest only. -/
lemma perform_digest (script script' : String) (program : Program) :
    attempt.perform board settings script' program =
      ({ (attempt.perform board settings script program).1 with digest := Digest.hex script' },
        (attempt.perform board settings script program).2) := rfl

/-- Programs that differ in the places of their procedures only are performed alike. -/
theorem perform_renumbers {place : Nat → Nat} {program program' : Program}
    (renumbers : program.Renumbers place program') (script : String) :
    attempt.perform board settings script program' =
      attempt.perform board settings script program := by
  have placed : Placed place
      (Machine.load program settings.maxCallDepth.toNat).procedures program'.procedures :=
    renumbers.placed
  unfold perform
  simp only
  rw [renumbers.name, Machine.load_renumbered place renumbers, Walk.run_renumbered placed]

end Attempt

end BlockPuzzle
