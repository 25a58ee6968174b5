import BlockPuzzle.Proofs.Attempt.Trail
import BlockPuzzle.Proofs.Attempt.Transcript

/-!
# Faithful journals

`Action.Fits` says what an entry may tell of an agent in some pose, `Action.ending?` which entries end
a run and how. A journal is faithful if each entry fits the pose to which the entries before it lead
(`Walk.Told`). Every deed keeps a journal faithful, wherever the agent began, and a deed that ends
a run is the last one: `Attempt.execute_faithful`.
-/

namespace BlockPuzzle

/-- What an entry may tell of an agent in some pose. A step leads from where the agent stands toward
the expected bearing, to a tile on which it may stand; a turn starts from where the agent faces and
is told as one to the left just if the left is the shorter way. -/
def Action.Fits (board : Board) (pose : Pose) : Action → Prop
  | .move source target =>
    source = pose.position ∧ ∃ bearing, board.expectedAt? source = some bearing ∧
      target = source.step bearing ∧ board.passableAt target = true
  | .rotateLeft source target => source = pose.facing ∧ source.turnTo target < 0
  | .rotateRight source target => source = pose.facing ∧ ¬ source.turnTo target < 0
  | .sense .. => True
  | .bump place toward => place = pose.position ∧ board.passage place toward ≠ .clear
  | .finish place => place = pose.position

/-- How an action ends a run, if it does: a bump, the wish to finish and a step onto FINISH do. -/
def Action.ending? (board : Board) : Action → Option Ending
  | .bump .. => some .crashed
  | .finish _ => some .finished
  | .move _ target => if target = board.finish then some .finished else none
  | .rotateLeft .. | .rotateRight .. | .sense .. => none

/-- The report and the attempt that a script leaves tell faithfully what the agent did. -/
structure Attempt.Faithful (board : Board) (before : Attempt) (report : Report)
    (after : Attempt) : Prop where
  fits : ∀ earlier entry later, after.journal.toList = earlier ++ entry :: later →
    entry.action.Fits board (carryOut before.logical earlier)
  last : ∀ earlier entry later, after.journal.toList = earlier ++ entry :: later →
    entry.action.ending? board ≠ none → later = []
  finalPose : report.finalPose = carryOut before.logical after.journal.toList
  logical : after.logical = report.finalPose
  display : after.display = before.display
  crashed : report.ending = .crashed ↔ ∃ entry, after.journal.toList.getLast? = some entry ∧
    entry.action.ending? board = some .crashed
  finished : report.ending = .finished ↔ ∃ entry, after.journal.toList.getLast? = some entry ∧
    entry.action.ending? board = some .finished

/-- An entry of a longer list is the new one or one of those before it. -/
lemma eq_concat_cases {α : Type} {earlier later entries : List α} {entry newest : α}
    (parts : entries ++ [newest] = earlier ++ entry :: later) :
    (earlier = entries ∧ entry = newest ∧ later = []) ∨
    ∃ between, later = between ++ [newest] ∧ entries = earlier ++ entry :: between := by
  obtain rfl | ⟨between, final, rfl⟩ := List.eq_nil_or_concat later
  · obtain ⟨rfl, same⟩ := List.append_inj' parts rfl
    cases same
    exact .inl ⟨rfl, rfl, rfl⟩
  · rw [List.concat_eq_append] at parts ⊢
    rw [← List.cons_append, ← List.append_assoc] at parts
    obtain ⟨rfl, same⟩ := List.append_inj' parts rfl
    cases same
    exact .inr ⟨between, rfl, rfl⟩

namespace Walk

variable {board : Board} {pose start : Pose} {walk walk' : Walk} {action : Action}
  {interrupt : Option Interrupt} {block : BlockId}

/-! ## One deed -/

/-- Every deed is told as it was done. -/
lemma Deed.fits (does : Deed board pose action interrupt) : action.Fits board pose := by
  cases does with
  | move clear =>
    obtain ⟨expected, passable⟩ := Board.passage_eq_clear_iff.1 clear
    exact ⟨rfl, _, expected, rfl, passable⟩
  | arrive clear there =>
    obtain ⟨expected, passable⟩ := Board.passage_eq_clear_iff.1 clear
    exact ⟨rfl, _, expected, there.symm, there ▸ passable⟩
  | bump blocked => exact ⟨rfl, blocked⟩
  | turnLeft left => exact ⟨rfl, left⟩
  | turnRight right => exact ⟨rfl, Int.not_lt.2 right⟩
  | sense => trivial
  | finish => rfl

/-- A deed ends a run just if it raises an interrupt, and then as the interrupt does. -/
lemma Deed.ending? (does : Deed board pose action interrupt) :
    action.ending? board = interrupt.map fun raised => endingOf (.host raised) := by
  cases does with
  | move _ apart => exact if_neg apart
  | arrive => exact if_pos rfl
  | bump => rfl
  | turnLeft => rfl
  | turnRight => rfl
  | sense => rfl
  | finish => rfl

/-! ## Journals -/

/-- The journal leads to where the agent is, and each entry fits the pose behind those before it. -/
structure Told (board : Board) (start : Pose) (walk : Walk) : Prop where
  logical : walk.attempt.logical = carryOut start walk.attempt.journal.toList
  fits : ∀ earlier entry later, walk.attempt.journal.toList = earlier ++ entry :: later →
    entry.action.Fits board (carryOut start earlier)

/-- One more deed is told, too. -/
lemma Told.deed (told : Told board start walk)
    (does : Deed board walk.attempt.logical action interrupt)
    (records : Records walk walk' ⟨block, action⟩) : Told board start walk' where
  logical := records.carriesOut told.logical
  fits := by
    intro earlier entry later parts
    rw [records.journal] at parts
    obtain ⟨rfl, rfl, -⟩ | ⟨between, -, before⟩ := eq_concat_cases parts
    · rw [← told.logical]
      exact does.fits
    · exact told.fits earlier entry between before

/-- No entry of the journal ends a run. -/
def Open (board : Board) (walk : Walk) : Prop :=
  ∀ entry ∈ walk.attempt.journal.toList, entry.action.ending? board = none

/-- The newest entry of the journal is the only one that ends a run, and this is how. -/
def Closed (board : Board) (ending : Ending) (walk : Walk) : Prop :=
  ∃ entries newest, walk.attempt.journal.toList = entries ++ [newest] ∧
    (∀ entry ∈ entries, entry.action.ending? board = none) ∧
    newest.action.ending? board = some ending

/-- A deed that raises no interrupt leaves a run open. -/
lemma Open.deed (unended : Open board walk) (does : Deed board walk.attempt.logical action none)
    (records : Records walk walk' ⟨block, action⟩) : Open board walk' := by
  intro entry mem
  rw [records.journal] at mem
  obtain mem | mem := List.mem_append.1 mem
  · exact unended entry mem
  · obtain rfl := List.mem_singleton.1 mem
    exact does.ending?

/-- A deed that raises one closes it. -/
lemma Open.last {raised : Interrupt} (unended : Open board walk)
    (does : Deed board walk.attempt.logical action (some raised))
    (records : Records walk walk' ⟨block, action⟩) :
    Closed board (endingOf (.host raised)) walk' :=
  ⟨_, _, records.journal, unended, does.ending?⟩

/-- All calls keep a journal faithful. -/
lemma noting_keeps_told (board : Board) (rule : SenseRule) (start : Pose) :
    (host board rule).noting.Keeps (fun p => Told board start p.1 ∧ Open board p.1)
      fun raised p => Told board start p.1 ∧ Closed board (endingOf (.host raised)) p.1 := by
  apply noting_keeps
  · rintro walk calls walk' request answer block action ⟨told, unended⟩ _ does records
    exact ⟨told.deed does records, unended.deed does records⟩
  · rintro walk calls walk' request answer block action raised ⟨told, unended⟩ _ does records
    exact ⟨told.deed does records, unended.last does records⟩
  · intro walk calls kept
    exact kept

/-! ## Ends of a run -/

/-- Nothing in an open journal tells of an end. -/
lemma Open.not_last {ending : Ending} (unended : Open board walk) :
    ¬ ∃ entry, walk.attempt.journal.toList.getLast? = some entry ∧
      entry.action.ending? board = some ending := by
  rintro ⟨entry, last, ends⟩
  rw [unended entry (List.mem_of_getLast? last)] at ends
  cases ends

/-- The last entry of a closed journal tells how the run has ended. -/
lemma Closed.iff_last {ending other : Ending} (closed : Closed board ending walk) :
    ending = other ↔ ∃ entry, walk.attempt.journal.toList.getLast? = some entry ∧
      entry.action.ending? board = some other := by
  obtain ⟨entries, newest, journal, -, ends⟩ := closed
  rw [journal, List.getLast?_concat]
  constructor
  · rintro rfl
    exact ⟨newest, rfl, ends⟩
  · rintro ⟨entry, last, ends'⟩
    cases last
    exact Option.some.inj (ends.symm.trans ends')

/-- Behind an entry that ends a run there is no other one. -/
lemma Closed.last {ending : Ending} (closed : Closed board ending walk)
    {earlier later : List Entry} {entry : Entry}
    (parts : walk.attempt.journal.toList = earlier ++ entry :: later)
    (ends : entry.action.ending? board ≠ none) : later = [] := by
  obtain ⟨entries, newest, journal, others, -⟩ := closed
  obtain ⟨-, -, rfl⟩ | ⟨between, -, rfl⟩ := eq_concat_cases (journal.symm.trans parts)
  · rfl
  · exact absurd (others entry (by simp)) ends

end Walk

namespace Attempt

/-- An attempt is concluded where the agent is. -/
lemma conclude_finalPose (attempt : Attempt) (board : Board) (script program : String)
    (ending : Ending) (ticks divergences : Nat) :
    (attempt.conclude board script program ending ticks divergences).2.logical =
      (attempt.conclude board script program ending ticks divergences).1.finalPose := by
  simp only [conclude, settle]
  by_cases unset : attempt.verdict = .unset
  · rw [if_pos unset]
  · rw [if_neg unset]

/-- The report shows the pose that the attempt is left in. -/
lemma execute_finalPose (attempt : Attempt) (board : Board) (settings : Settings)
    (script : String) : (attempt.execute board settings script).2.logical =
      (attempt.execute board settings script).1.finalPose := by
  unfold execute
  cases Program.compile script with
  | error e => exact conclude_finalPose ..
  | ok program => exact conclude_finalPose ..

/-- Whatever the board, the pose from which the agent sets out, the marks that others have left and
the settings, the execution of a script in a fresh attempt is told faithfully. -/
theorem execute_faithful (board : Board) (start : Pose) (marks : Marks) (settings : Settings)
    (script : String) :
    Faithful board (fresh start marks) ((fresh start marks).execute board settings script).1
      ((fresh start marks).execute board settings script).2 := by
  have told : Walk.Told board start (Walk.start (fresh start marks)) :=
    ⟨rfl, fun _ _ _ parts => absurd parts (by simp [Walk.start, fresh])⟩
  have unended : Walk.Open board (Walk.start (fresh start marks)) := List.forall_mem_nil _
  have place := execute_finalPose (fresh start marks) board settings script
  obtain ⟨walk, report, executed, -, spares, -, ends⟩ :=
    execute_keeps (Walk.noting_keeps_told board settings.senseRule start) script rfl ⟨told, unended⟩
  rw [executed] at place ⊢
  obtain ⟨unfinished, uncrashed, told, unended⟩ | ⟨raised, ending, told, closed⟩ := ends
  · exact {
      fits := told.fits
      last := fun earlier entry later parts ends =>
        absurd (unended entry (by simp [parts])) ends
      finalPose := place.symm.trans told.logical
      logical := place
      display := spares.display
      crashed := iff_of_false uncrashed unended.not_last
      finished := iff_of_false unfinished unended.not_last }
  · rw [← ending] at closed
    exact {
      fits := told.fits
      last := fun _ _ _ parts ends => closed.last parts ends
      finalPose := place.symm.trans told.logical
      logical := place
      display := spares.display
      crashed := closed.iff_last
      finished := closed.iff_last }

end Attempt

end BlockPuzzle
