import BlockPuzzle.Proofs.Attempt.Outcome
import BlockPuzzle.Proofs.Machine.Frames
import BlockPuzzle.Proofs.Program.Calls
import BlockPuzzle.Proofs.Session.Run

/-!
# Reports of runs

Whatever was done with a session before, and whatever the script, a run gives a report; a problem
with the script is an ending like any other. The only faults are that the script does not compile and
that frames are nested too deep: `Session.run_reports`. What a compiled program calls is there, so no
machine that runs it ever misses a procedure.
-/

namespace BlockPuzzle

/-- What is settled about the calls of a program when its script has been compiled. -/
structure Program.Resolved (program : Program) (forms : List Form) : Prop where
  names : program.calls.map (fun index => program.procedures[index]?.map Procedure.name) =
    (Form.calledNamesOf forms).map some
  distinct : (program.procedures.map Procedure.name).Nodup
  known : ∀ {σ ε : Type} {host : Host σ ε} {limit : Nat} {m : Machine} {s s' : σ},
    Machine.Ticked host (Machine.load program limit) s m s' →
    ∀ index, (m.tick host s').report ≠ .error (.unknownProcedure index)

/-- The calls of a program that has been compiled are settled by the forms of its script. -/
lemma Program.resolved_of_compile {source : String} {program : Program}
    (compiles : compile source = .ok program) :
    ∃ forms, Form.readAll source = .ok forms ∧ program.Resolved forms := by
  obtain ⟨forms, reads, names, distinct⟩ := calls_of_compile compiles
  exact ⟨forms, reads, names, distinct, fun ticked => ticked.known (lt_of_compile compiles)⟩

namespace Session

/-- The deepest nesting of frames that a session allows. -/
def depthLimit (session : Session) : Nat :=
  max 1 session.settings.maxCallDepth.toNat

/-- What a report says of the run of a script, and what it leaves. -/
structure Reports (session : Session) (script : String) (report : Report) (ran : Session) :
    Prop where
  fits : report.verdict = report.ending.classify report.finalPose.position session.level.board.finish
  settled : report.verdict ≠ .unset
  verdict : ran.attempt.verdict = report.verdict
  logical : ran.attempt.logical = report.finalPose
  budget : report.ticks ≤ session.settings.tickBudget.toNat
  exhausted : report.ending = .exhausted → report.ticks = session.settings.tickBudget.toNat
  rejected : ∀ e, Program.compile script = .error e →
    report.ending = .fault e.message ∧ report.ticks = 0 ∧ ran.attempt.journal.toList = [] ∧
      ran.attempt.logical = session.level.startPose
  fault : ∀ detail, report.ending = .fault detail →
    (∃ e, Program.compile script = .error e) ∨
      ∃ program walk, Program.compile script = .ok program ∧
        detail = (Fault.tooDeep session.depthLimit).message Interrupt.message ∧
        Machine.FailsAt (Walk.host session.level.board session.settings.senseRule)
          (Machine.load program session.settings.maxCallDepth.toNat)
          (Walk.start session.reset.attempt) report.ticks (.tooDeep session.depthLimit) walk

/-- A fault of a walk is that frames are nested too deep, if the program calls procedures that
exist. -/
lemma fault_of_outcome {board : Board} {rule : SenseRule} {program : Program} {limit budget ticks : Nat}
    {walk walk' : Walk} {ending : Ending} {detail : String}
    (exist : ∀ index ∈ program.calls, index < program.procedures.length)
    (outcome : Walk.Outcome (Walk.host board rule) budget (Machine.load program limit) walk ending
      ticks walk') (fault : ending = .fault detail) :
    detail = (Fault.tooDeep (max 1 limit)).message Interrupt.message ∧
      Machine.FailsAt (Walk.host board rule) (Machine.load program limit) walk ticks
        (.tooDeep (max 1 limit)) walk' := by
  cases outcome with
  | completed => cases fault
  | exhausted => cases fault
  | @failed _ failure _ fails _ =>
    cases failure with
    | host interrupt =>
      cases interrupt with
      | finish => cases fault
      | crash => cases fault
    | unknownProcedure index =>
      -- whatever the walk has done before, the machine only calls what the program calls
      obtain ⟨m, s, ticked, reports⟩ := fails.ticked
      exact absurd reports (ticked.known exist index)
    | tooDeep depth =>
      cases fails.tooDeep
      cases fault
      exact ⟨rfl, fails⟩

/-- Every run of a script gives a report. A script that does not compile, or nests frames too deep,
ends in a fault; and nothing else does, since the calls of a compiled program lead to the procedures
that its script names. -/
theorem run_reports (session : Session) (script : String) :
    (∃ report, (session.run script).1 = .ok report ∧
      session.Reports script report (session.run script).2) ∧
    ∀ program, Program.compile script = .ok program →
      ∃ forms, Form.readAll script = .ok forms ∧ program.Resolved forms := by
  refine ⟨?_, fun program => Program.resolved_of_compile⟩
  obtain ⟨replay, -, ran⟩ := session.run_eq script
  obtain ⟨same, settled⟩ := session.execution_verdict script
  refine ⟨_, congrArg Prod.fst ran, ?_⟩
  rw [ran]
  cases compiled : Program.compile script with
  | error e =>
    have executed : session.execution script = _ := Attempt.execute_of_error compiled rfl
    rw [executed] at same settled ⊢
    exact {
      fits := rfl
      settled
      verdict := same
      logical := rfl
      budget := Nat.zero_le _
      exhausted := nofun
      rejected := by
        rintro e' rejected
        cases compiled.symm.trans rejected
        exact ⟨rfl, rfl, rfl, rfl⟩
      fault := fun _ _ => .inl ⟨e, compiled⟩ }
  | ok program =>
    obtain ⟨report, walk, executed, fits, pose, outcome⟩ :=
      @Attempt.execute_of_compile session.reset.attempt session.level.board session.settings _ _
        compiled rfl
    have executed : session.execution script = _ := executed
    rw [executed] at same settled ⊢
    exact {
      fits := pose ▸ fits
      settled
      verdict := same
      logical := pose.symm
      budget := outcome.ticks_le.1
      exhausted := outcome.ticks_le.2
      rejected := fun e rejected => by cases compiled.symm.trans rejected
      fault := fun detail fault => by
        obtain ⟨words, fails⟩ := fault_of_outcome (Program.lt_of_compile compiled) outcome fault
        exact .inr ⟨program, walk, compiled, words, fails⟩ }

end Session

end BlockPuzzle
