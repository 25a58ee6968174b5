import BlockPuzzle.Proofs.Attempt.Outcome
import BlockPuzzle.Proofs.Machine.Room

/-!
# Limits of a walk

Ticks that are used up and frames that find no room cut a walk off where it is. A walk that may make
more ticks and open more frames goes on from there, and one that was not cut off is the same:
`Walk.run_cutOff`, and `Attempt.execute_cutOff` for the execution of a script.
-/

namespace BlockPuzzle

/-- Whether a walk was cut off by one of its limits. -/
def Ending.IsCut (ending : Ending) : Prop :=
  ending = .exhausted ∨
    ∃ limit, ending = .fault ((Fault.tooDeep limit : Fault Interrupt).message Interrupt.message)

/-- Settings that differ in limits only, and the second ones allow as much as the first or more. -/
structure Settings.Widens (narrow wide : Settings) : Prop where
  tickBudget : narrow.tickBudget ≤ wide.tickBudget
  maxCallDepth : narrow.maxCallDepth ≤ wide.maxCallDepth
  others : wide =
    { narrow with tickBudget := wide.tickBudget, maxCallDepth := wide.maxCallDepth }

namespace Walk

/-- A walk has gone at least as far as another one has, in its journal. -/
abbrev Extends (walk walk' : Walk) : Prop :=
  walk.attempt.journal.toList <+: walk'.attempt.journal.toList

/-- Ends of two runs that are the same, or the first run was cut off on its way. -/
inductive CutOff : Ending × Nat × Walk → Ending × Nat × Walk → Prop where
  | whole {ends} :
    CutOff ends ends
  | cut {ending ticks walk ending' ticks' walk'} :
    ending.IsCut →
    ticks ≤ ticks' →
    Extends walk walk' →
    CutOff (ending, ticks, walk) (ending', ticks', walk')

variable (board : Board) (rule : SenseRule)

/-- A run only adds to the journal, and counts its ticks on. -/
lemma run_extends (budget ticks : Nat) (machine : Machine) (walk : Walk) :
    ticks ≤ (run board rule budget ticks machine walk).2.1 ∧
      Extends walk (run board rule budget ticks machine walk).2.2 := by
  have keeps : (host board rule).noting.Keeps (fun p => Extends walk p.1)
      fun _ p => Extends walk p.1 := by
    apply noting_holds
    · intro _ _ _ _ _ _ _ _ before _ records
      unfold Extends
      rw [records.journal]
      exact before.trans (List.prefix_append _ _)
    · intro _ _ before
      exact before
  obtain ⟨-, state⟩ := runOn_noting (host board rule) budget ticks machine walk
  obtain ⟨count, counts, -⟩ := runOn_outcome (host board rule) budget ticks machine walk
  rw [run_eq_runOn, counts, ← state]
  refine ⟨Nat.le_add_right ticks count, ?_⟩
  exact (runOn_endsWith keeps budget ticks machine (s := (walk, [])) (List.prefix_refl _)).holds

/-- With more ticks and more room a run ends the same, unless it was cut off. -/
theorem run_cutOff (budget more extra ticks : Nat) (machine : Machine) (walk : Walk) :
    CutOff (run board rule budget ticks machine walk)
      (run board rule (budget + more) ticks (machine.roomier extra) walk) := by
  -- on the ticks of the shorter run; both are in step until it is cut off
  induction budget generalizing ticks machine walk with
  | zero =>
    by_cases work : machine.hasWork = true
    · have cut : run board rule 0 ticks machine walk = (.exhausted, ticks, walk) := by
        unfold run
        rw [if_pos work]
      have further := run_extends board rule (0 + more) ticks (machine.roomier extra) walk
      rw [cut]
      exact .cut (.inl rfl) further.1 further.2
    · unfold run
      rw [Machine.hasWork_roomier, if_neg work, if_neg work]
      exact .whole
  | succ budget ih =>
    rw [Nat.add_right_comm]
    unfold run
    rw [Machine.hasWork_roomier]
    by_cases work : machine.hasWork = true
    · rw [if_pos work, if_pos work]
      have roomier := Machine.tick_roomier extra machine (host board rule) walk
      simp only
      generalize machine.tick (host board rule) walk = tick at roomier
      generalize (machine.roomier extra).tick (host board rule) walk = tick' at roomier
      cases roomier with
      | @same report m s =>
        cases report with
        | ok progress => exact ih (ticks + 1) m s
        | error fault => exact .whole
      | @full limit m s tick' same =>
        subst same
        cases tick'.report with
        | ok progress =>
          have further := run_extends board rule (budget + more) (ticks + 1) tick'.machine tick'.host
          exact .cut (.inr ⟨limit, rfl⟩) further.1 further.2
        | error fault => exact .cut (.inr ⟨limit, rfl⟩) (Nat.le_refl _) (List.prefix_refl _)
    · rw [if_neg work, if_neg work]
      exact .whole

end Walk

namespace Attempt

/-- What two executions of a script report, and the journals that they leave: the same, unless the
first one was cut off; and in any case the second one has gone as far. -/
structure CutOff (report report' : Report) (entries entries' : List Entry) : Prop where
  whole : ¬ report.ending.IsCut → report' = report ∧ entries' = entries
  entries : entries <+: entries'
  ticks : report.ticks ≤ report'.ticks

/-- Every execution is related to itself. -/
lemma CutOff.refl (report : Report) (entries : List Entry) :
    CutOff report report entries entries :=
  ⟨fun _ => ⟨rfl, rfl⟩, List.prefix_refl _, Nat.le_refl _⟩

/-- Concluding an attempt adds nothing to its journal. -/
lemma conclude_journal (attempt : Attempt) (board : Board) (script program : String)
    (ending : Ending) (ticks divergences : Nat) :
    (attempt.conclude board script program ending ticks divergences).2.journal =
      attempt.journal := by
  unfold conclude
  simp only
  cases settled : attempt.settle (ending.classify attempt.logical.position board.finish) with
  | error standing => rfl
  | ok attempt' =>
    unfold settle at settled
    split at settled
    · cases settled
      rfl
    · cases settled

/-- The execution of a script under wider limits gives the same, unless limits have cut it off. -/
theorem execute_cutOff (attempt : Attempt) (board : Board) {narrow wide : Settings}
    (widens : narrow.Widens wide) (script : String) :
    CutOff (attempt.execute board narrow script).1 (attempt.execute board wide script).1
      (attempt.execute board narrow script).2.journal.toList
      (attempt.execute board wide script).2.journal.toList := by
  unfold execute
  cases Program.compile script with
  | error e => exact .refl _ _
  | ok program =>
    have rule : wide.senseRule = narrow.senseRule := by rw [widens.others]
    obtain ⟨more, budget⟩ :=
      Nat.exists_eq_add_of_le (UInt64.le_iff_toNat_le.1 widens.tickBudget)
    obtain ⟨extra, machine⟩ :=
      Machine.load_roomier program (UInt64.le_iff_toNat_le.1 widens.maxCallDepth)
    simp only
    rw [rule, budget, machine]
    have cutOff := Walk.run_cutOff board narrow.senseRule narrow.tickBudget.toNat more extra 0
      (Machine.load program narrow.maxCallDepth.toNat) (Walk.start attempt)
    generalize Walk.run board narrow.senseRule narrow.tickBudget.toNat 0
      (Machine.load program narrow.maxCallDepth.toNat) (Walk.start attempt) = ends at cutOff
    generalize Walk.run board narrow.senseRule (narrow.tickBudget.toNat + more) 0
      ((Machine.load program narrow.maxCallDepth.toNat).roomier extra) (Walk.start attempt) = ends'
      at cutOff
    cases cutOff with
    | whole => exact .refl _ _
    | cut isCut ticks further =>
      refine ⟨fun whole => absurd isCut whole, ?_, ticks⟩
      rw [conclude_journal, conclude_journal]
      exact further

end Attempt

end BlockPuzzle
