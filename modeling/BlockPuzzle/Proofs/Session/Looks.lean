import BlockPuzzle.Proofs.Attempt.Limits
import BlockPuzzle.Proofs.Machine.Looks
import BlockPuzzle.Proofs.Session.Run

/-!
# How long a journal gets

A run leaves no more entries than the ticks that it has made, times the looks that one statement of its
program asks for at most. A command is always one entry, and where neither a command is obeyed nor a
condition asked there is none: `Session.run_entries`.
-/

namespace BlockPuzzle

namespace Walk

variable {board : Board} {rule : SenseRule} {walk walk' : Walk} {block : BlockId} {α : Type}

/-- The number of entries in the journal of a walk. -/
def entries (walk : Walk) : Nat :=
  walk.attempt.journal.size

/-- A walk that has recorded an entry has one more. -/
lemma Records.entries {entry : Entry} (records : Records walk walk' entry) :
    walk'.entries = walk.entries + 1 := by
  unfold Walk.entries
  rw [Journal.size_eq_length, Journal.size_eq_length, records.journal, List.length_append]
  rfl

/-- Whether a call fails or not, it leaves what it has recorded. -/
lemma Results.leaves {I : Walk → Prop} {result : EStateM.Result Interrupt Walk α}
    (results : Results board walk block result)
    (recorded : ∀ {walk' action}, Records walk walk' ⟨block, action⟩ → I walk') :
    Leaves I (fun _ => I) result := by
  cases results with
  | ok _ records => exact recorded records
  | error _ records => exact recorded records

/-- A board adds an entry for every command and for every look. -/
lemma host_journals (board : Board) (rule : SenseRule) : (host board rule).Journals entries where
  command {walk} order block := by
    have results : Results board walk block ((host board rule).command order block walk) :=
      results_command order
    exact results.leaves fun records => records.entries
  sense {walk} side block := by
    have results : Results board walk block ((host board rule).sense side block walk) :=
      results_sense rule side
    exact results.leaves fun records => records.entries
  notDone := rfl

/-- What a tick adds to a journal: a command adds one entry for its block, what asks no condition adds none,
and a condition adds one for each of its looks at most. -/
structure Adds (errand : Errand) (walk walk' : Walk) : Prop where
  command : ∀ order block, errand = .statement (.command order block) →
    ∃ action, walk'.attempt.journal.toList = walk.attempt.journal.toList ++ [⟨block, action⟩]
  quiet : errand.IsQuiet → walk' = walk
  most : walk'.entries ≤ walk.entries + errand.entries

/-- A tick adds to the journal what its errand allows. -/
lemma tick_adds (board : Board) (rule : SenseRule) (machine : Machine) (walk : Walk) :
    Adds machine.errand walk (machine.tick (host board rule) walk).host where
  command order block is := by
    have results : Results board walk block ((host board rule).command order block walk) :=
      results_command order
    have left : Leaves (fun walk' => ∃ action, Records walk walk' ⟨block, action⟩) _ _ :=
      results.leaves fun records => ⟨_, records⟩
    obtain ⟨action, records⟩ := Machine.tick_command is left
    exact ⟨action, records.journal⟩
  quiet quiet := Machine.tick_quiet quiet _ walk
  most := Machine.entries_tick_le (host_journals board rule) machine walk

/-- However a walk ends, its ticks bound what has been added to the journal. -/
lemma Outcome.entries_le {program : Program} {machine : Machine} {budget ticks : Nat}
    {ending : Ending} (of : machine.Of program)
    (outcome : Outcome (host board rule) budget machine walk ending ticks walk') :
    walk'.entries ≤ walk.entries + ticks * program.entriesPerTick := by
  have journals := host_journals board rule
  cases outcome with
  | completed halts =>
    obtain ⟨_, run, -⟩ := halts
    exact (run.entries_le of journals).2
  | exhausted run => exact (run.entries_le of journals).2
  | failed fails => exact fails.entries_le of journals

end Walk

/-- A report counts the entries that are left. -/
lemma Attempt.execute_actions (attempt : Attempt) (board : Board) (settings : Settings)
    (script : String) : (attempt.execute board settings script).1.actions =
      (attempt.execute board settings script).2.journal.size := by
  unfold execute
  cases Program.compile script with
  | error e => rfl
  | ok program => rfl

namespace Session

/-- The journal that a run leaves has no more entries than the run has made ticks, or might have made,
times what one tick of the program can add; and none at all if the script does not compile. As for the
ticks themselves, a command adds just one entry, and nothing else does but conditions. -/
theorem run_entries (session : Session) (script : String) :
    ∃ report, (session.run script).1 = .ok report ∧
      report.actions = (session.run script).2.attempt.journal.toList.length ∧
      (∀ e, Program.compile script = .error e → report.actions = 0) ∧
      (∀ program, Program.compile script = .ok program →
        report.actions ≤ report.ticks * program.entriesPerTick ∧
        report.actions ≤ session.settings.tickBudget.toNat * program.entriesPerTick) ∧
      ∀ (machine : Machine) (walk : Walk), Walk.Adds machine.errand walk
        (machine.tick (Walk.host session.level.board session.settings.senseRule) walk).host := by
  obtain ⟨replay, -, ran⟩ := session.run_eq script
  have actions : (session.execution script).1.actions = (session.execution script).2.journal.size :=
    Attempt.execute_actions _ _ _ _
  refine ⟨_, congrArg Prod.fst ran, ?_, fun e rejected => ?_, fun program compiles => ?_,
    Walk.tick_adds _ _⟩
  · rw [ran, actions, Journal.size_eq_length]
  · rw [execution, Attempt.execute_of_error rejected rfl]
    rfl
  · obtain ⟨report, walk, is, left, -, outcome⟩ := session.run_of_compile compiles
    rw [ran] at is left
    cases is
    have left : (session.execution script).2 = _ := left
    have journal : (session.execution script).2.journal = walk.attempt.journal := by
      rw [left]
    have most := outcome.entries_le (Machine.load_of program _)
    have start : (Walk.start session.reset.attempt).entries = 0 := rfl
    rw [start, Nat.zero_add] at most
    rw [actions, journal]
    exact ⟨most, most.trans (Nat.mul_le_mul_right _ outcome.ticks_le.1)⟩

end Session

end BlockPuzzle
