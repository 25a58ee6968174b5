import BlockPuzzle.Proofs.Attempt.Renumbering
import BlockPuzzle.Proofs.Program.Calls
import BlockPuzzle.Proofs.Program.Rearranging
import BlockPuzzle.Session

/-!
# Where procedures are defined

Nothing about a script depends on where and in which order it defines its procedures: forms that have
been rearranged are built just as well, and what is built from them is performed alike and uses as many
distinct blocks. `Program.rearranged_alike` says so of forms and of the scripts that are read as them.
-/

namespace BlockPuzzle

/-- Two programs do the same: performed in any attempt they give the same report and leave the same
attempt, and no level is left with more blocks by one than by the other. -/
structure Program.Alike (program program' : Program) : Prop where
  performs : ∀ (attempt : Attempt) board settings script,
    attempt.perform board settings script program' = attempt.perform board settings script program
  blocksLeft : ∀ level : Level,
    level.blocksLeft program'.blockIds.length = level.blocksLeft program.blockIds.length

/-- Two scripts do the same: executed in any attempt they leave the same attempt and give the same
report, but for the digest of the text, and they leave the same capacity. -/
structure Session.Alike (script script' : String) : Prop where
  executes : ∀ (attempt : Attempt) board settings,
    attempt.execute board settings script' =
      ({ (attempt.execute board settings script).1 with digest := Digest.hex script' },
        (attempt.execute board settings script).2)
  remainingCapacity : ∀ session : Session,
    session.remainingCapacity script' = session.remainingCapacity script

namespace Program

variable {forms forms' : List Form}

/-- Programs that differ in the numbers of their procedures do the same. -/
lemma Renumbers.alike {place : Nat → Nat} {program program' : Program}
    (renumbers : program.Renumbers place program') : program.Alike program' where
  performs attempt board settings script := attempt.perform_renumbers board settings renumbers script
  blocksLeft level := by rw [renumbers.length_blockIds]

/-- Scripts whose programs do the same do the same themselves. -/
lemma Alike.scripts {program program' : Program} (alike : program.Alike program')
    {script script' : String} (compiles : compile script = .ok program)
    (compiles' : compile script' = .ok program') : Session.Alike script script' where
  executes attempt board settings := by
    rw [attempt.execute_eq_perform board settings compiles,
      attempt.execute_eq_perform board settings compiles', alike.performs]
    exact attempt.perform_digest board settings script script' program
  remainingCapacity session := by
    unfold Session.remainingCapacity
    rw [compiles, compiles']
    exact congrArg Except.ok (alike.blocksLeft session.level)

/-- Rearranged forms are built into programs that do the same, if either list of forms is built into a
program; and so do the scripts that are read as them. -/
theorem rearranged_alike (rearranged : Form.Rearranged forms forms') :
    (∀ name, (∃ program, ofForms name forms = .ok program) ↔
      ∃ program', ofForms name forms' = .ok program') ∧
    (∀ name program program', ofForms name forms = .ok program →
      ofForms name forms' = .ok program' → program.Alike program') ∧
    ∀ script script', Form.readAll script = .ok forms → Form.readAll script' = .ok forms' →
      ((∃ program, compile script = .ok program) ↔ ∃ program', compile script' = .ok program') ∧
      ((∃ program, compile script = .ok program) → Session.Alike script script') := by
  have built : ∀ {forms forms' name}, Form.Rearranged forms forms' →
      (∃ program, ofForms name forms = .ok program) →
      ∃ program', ofForms name forms' = .ok program' := by
    rintro forms forms' name rearranged ⟨program, builds⟩
    obtain ⟨-, program', -, builds'⟩ := ofForms_rearranged rearranged builds
    exact ⟨program', builds'⟩
  have alike : ∀ name program program', ofForms name forms = .ok program →
      ofForms name forms' = .ok program' → program.Alike program' := by
    intro name program program' builds builds'
    obtain ⟨place, program'', renumbers, built⟩ := ofForms_rearranged rearranged builds
    cases built.symm.trans builds'
    exact renumbers.alike
  refine ⟨fun name => ⟨built rearranged, built rearranged.symm⟩, alike, ?_⟩
  intro script script' reads reads'
  simp only [compile_iff reads, compile_iff reads', rearranged.scriptName]
  refine ⟨⟨built rearranged, built rearranged.symm⟩, ?_⟩
  rintro ⟨program, builds⟩
  obtain ⟨program', builds'⟩ := built rearranged ⟨program, builds⟩
  have named := rearranged.scriptName.symm ▸ builds'
  exact (alike _ program program' builds builds').scripts ((compile_iff reads).2 builds)
    ((compile_iff reads').2 named)

/-- Procedures that call one another, defined in either order and before or behind the main call. -/
theorem rearranged_alike_calls :
    let before : Form := .list [.symbol "define", .symbol "f", .list [.symbol "call", .symbol "g"]]
    let main : Form := .list [.symbol "call", .symbol "f"]
    let behind : Form := .list [.symbol "define", .symbol "g", .list [.symbol "turn-left", .symbol "a"]]
    Form.Rearranged [before, main, behind] [behind, before, main] ∧
      Session.Alike "(define f (call g)) (call f) (define g (turn-left a))"
        "(define g (turn-left a)) (define f (call g)) (call f)" := by
  intro before main behind
  have perm : ([before, main] ++ [behind]).Perm ([behind] ++ [before, main]) :=
    List.perm_append_comm
  have rearranged : Form.Rearranged [before, main, behind] [behind, before, main] := ⟨perm, rfl⟩
  have reads : Form.readAll "(define f (call g)) (call f) (define g (turn-left a))" =
      .ok [before, main, behind] := by
    with_unfolding_all rfl
  have reads' : Form.readAll "(define g (turn-left a)) (define f (call g)) (call f)" =
      .ok [behind, before, main] := by
    with_unfolding_all rfl
  obtain ⟨-, -, scripts⟩ := rearranged_alike rearranged
  exact ⟨rearranged, (scripts _ _ reads reads').2 ⟨_, (compile_iff reads).2 rfl⟩⟩

end Program

end BlockPuzzle
