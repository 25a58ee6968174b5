import BlockPuzzle.Proofs.Attempt.Run
import BlockPuzzle.Proofs.Machine.Tick

/-!
# Outcomes of a walk

A walk stops its machine when the ticks are used up; otherwise the machine ends as it would by itself.
`Walk.Outcome` lists the three ways, `Walk.runOn_outcome` says that every run ends in one of them, and
`Attempt.execute_of_compile` what comes of it when a script is executed.
-/

namespace BlockPuzzle

namespace Walk

open Machine (Runs HaltsAfter FailsAt)

/-- How a machine is left behind that may make so many ticks: it has no work left, or it has used the
ticks up, or the last tick has failed. -/
inductive Outcome {σ : Type} (host : Host σ Interrupt) (budget : Nat) (m : Machine) (s : σ) :
    Ending → Nat → σ → Prop where
  | completed {ticks s'} :
    HaltsAfter host m s ticks s' →
    ticks ≤ budget →
    Outcome host budget m s .completed ticks s'
  | exhausted {m' s'} :
    Runs host budget m s m' s' →
    m'.hasWork = true →
    Outcome host budget m s .exhausted budget s'
  | failed {ticks fault s'} :
    FailsAt host m s ticks fault s' →
    ticks ≤ budget →
    Outcome host budget m s (endingOf fault) ticks s'

variable {σ : Type} {host : Host σ Interrupt} {budget ticks : Nat} {m m1 : Machine} {s s1 s' : σ}
  {ending : Ending}

/-- One more tick before the others. -/
lemma Outcome.tick (work : m.hasWork = true) (st : m.tick host s = m1.went s1)
    (outcome : Outcome host budget m1 s1 ending ticks s') :
    Outcome host (budget + 1) m s ending (ticks + 1) s' := by
  cases outcome with
  | completed halts le =>
    obtain ⟨m2, run, idle⟩ := halts
    exact .completed ⟨m2, .tick work st run, idle⟩ (Nat.succ_le_succ le)
  | exhausted run work' => exact .exhausted (.tick work st run) work'
  | failed fails le =>
    obtain ⟨before, m2, s2, m3, rfl, run, work', st'⟩ := fails
    exact .failed ⟨before + 1, m2, s2, m3, rfl, .tick work st run, work', st'⟩ (Nat.succ_le_succ le)

/-- A run ends in one of the three ways. -/
theorem runOn_outcome (host : Host σ Interrupt) (budget before : Nat) (m : Machine) (s : σ) :
    ∃ ticks, (runOn host budget before m s).2.1 = before + ticks ∧
      Outcome host budget m s (runOn host budget before m s).1 ticks
        (runOn host budget before m s).2.2 := by
  -- on the ticks that are left, as the run is defined
  induction budget generalizing before m s with
  | zero =>
    unfold runOn
    by_cases work : m.hasWork = true
    · rw [if_pos work]
      exact ⟨0, rfl, .exhausted .rest work⟩
    · rw [if_neg work]
      exact ⟨0, rfl, .completed ⟨m, .rest, eq_false_of_ne_true work⟩ (Nat.le_refl 0)⟩
  | succ budget ih =>
    unfold runOn
    by_cases work : m.hasWork = true
    · rw [if_pos work]
      have ticks := m.ticks host s
      cases ticked : m.tick host s with
      | mk report m1 s1 =>
        rw [ticked] at ticks
        cases report with
        | ok progress =>
          cases ticks.running work
          obtain ⟨count, same, outcome⟩ := ih (before + 1) m1 s1
          exact ⟨count + 1, by rw [same]; omega, outcome.tick work ticked⟩
        | error fault =>
          exact ⟨1, rfl, .failed ⟨0, m, s, m1, rfl, .rest, work, ticked⟩ (Nat.le_add_left 1 budget)⟩
    · rw [if_neg work]
      exact ⟨0, rfl, .completed ⟨m, .rest, eq_false_of_ne_true work⟩ (Nat.zero_le _)⟩

/-- The ticks that are allowed are enough, or have been used up. -/
lemma Outcome.ticks_le (outcome : Outcome host budget m s ending ticks s') :
    ticks ≤ budget ∧ (ending = .exhausted → ticks = budget) := by
  cases outcome with
  | completed _ le => exact ⟨le, nofun⟩
  | exhausted => exact ⟨Nat.le_refl _, fun _ => rfl⟩
  | @failed ticks fault s' _ le =>
    refine ⟨le, fun same => ?_⟩
    unfold endingOf at same
    split at same <;> cases same

end Walk

namespace Attempt

variable {attempt : Attempt} {board : Board} {settings : Settings} {script : String}

/-- A script that compiles is walked to one of the three outcomes. -/
lemma execute_of_compile {program : Program} (compiles : Program.compile script = .ok program)
    (unset : attempt.verdict = .unset) :
    ∃ report walk, attempt.execute board settings script =
        (report, { walk.attempt with verdict := report.verdict }) ∧
      report.verdict = report.ending.classify walk.attempt.logical.position board.finish ∧
      report.finalPose = walk.attempt.logical ∧
      Walk.Outcome (Walk.host board settings.senseRule) settings.tickBudget.toNat
        (Machine.load program settings.maxCallDepth.toNat) (Walk.start attempt) report.ending
        report.ticks walk := by
  unfold execute
  simp only [compiles]
  generalize settings.tickBudget.toNat = budget
  generalize Machine.load program settings.maxCallDepth.toNat = machine
  have spares := Walk.run_spares board settings.senseRule budget 0 machine (Walk.start attempt)
  obtain ⟨ticks, same, outcome⟩ :=
    Walk.runOn_outcome (Walk.host board settings.senseRule) budget 0 machine (Walk.start attempt)
  rw [← Walk.run_eq_runOn] at same outcome
  rw [Nat.zero_add] at same
  refine ⟨_, _, conclude_of_unset (spares.verdict.trans unset) _ _ _ _ _, rfl, rfl, ?_⟩
  rw [same]
  exact outcome

/-- A script that does not compile is a fault at once. -/
lemma execute_of_error {e : ScriptError} (rejected : Program.compile script = .error e)
    (unset : attempt.verdict = .unset) :
    attempt.execute board settings script =
      (⟨"anonymous", Digest.hex script, .fault e.message, .error, 0, attempt.journal.size,
        attempt.logical, 0⟩, { attempt with verdict := .error }) := by
  unfold execute
  rw [rejected]
  exact conclude_of_unset unset _ _ _ _ _

end Attempt

end BlockPuzzle
