import BlockPuzzle.Proofs.Attempt.Run

/-!
# What a journal tells

`traced` carries out the entries of a journal one after the other and keeps the pose behind each of
them. `recordings` reads off the calls of a run which entries they have recorded and where the agent
really was then. The two are the same for every execution: `Attempt.execute_recordings`.
-/

namespace BlockPuzzle

/-! ## Carrying out entries -/

/-- The pose after entries that are carried out one after the other. -/
def carryOut (pose : Pose) (entries : List Entry) : Pose :=
  entries.foldl (fun pose entry => entry.action.apply pose) pose

/-- The last entry is carried out behind all others. -/
lemma carryOut_concat (pose : Pose) (entries : List Entry) (entry : Entry) :
    carryOut pose (entries ++ [entry]) = entry.action.apply (carryOut pose entries) :=
  List.foldl_append

/-- Entries that are carried out one after the other, each with the pose right after it. -/
def traced (pose : Pose) : List Entry → List (Entry × Pose)
  | [] => []
  | entry :: entries =>
    (entry, entry.action.apply pose) :: traced (entry.action.apply pose) entries

/-- Further entries are carried out from where the others have led. -/
lemma traced_append (pose : Pose) (entries others : List Entry) :
    traced pose (entries ++ others) =
      traced pose entries ++ traced (carryOut pose entries) others := by
  induction entries generalizing pose with
  | nil => rfl
  | cons entry entries ih =>
    rw [List.cons_append, traced, ih]
    rfl

/-- A trace has the entries that it was made from. -/
lemma map_fst_traced (pose : Pose) (entries : List Entry) :
    (traced pose entries).map Prod.fst = entries := by
  induction entries generalizing pose with
  | nil => rfl
  | cons entry entries ih => rw [traced, List.map_cons, ih]

/-! ## Recording entries -/

/-- The entry that a call has recorded, if it has recorded one. -/
def Call.entry? (call : Call Walk) : Option Entry :=
  if call.before.attempt.journal.size < call.after.attempt.journal.size then
    call.after.attempt.journal.toList.getLast?
  else none

/-- What calls have recorded, each entry with the pose of the agent right after the call. -/
def recordings (calls : List (Call Walk)) : List (Entry × Pose) :=
  calls.filterMap fun call => call.entry?.map fun entry => (entry, call.after.attempt.logical)

namespace Walk

variable {board : Board} {walk walk' : Walk}

/-- A deed leads the agent to where its entry does. -/
lemma Records.carriesOut {entry : Entry} (records : Records walk walk' entry) {start : Pose}
    (leads : walk.attempt.logical = carryOut start walk.attempt.journal.toList) :
    walk'.attempt.logical = carryOut start walk'.attempt.journal.toList := by
  rw [records.logical, records.journal, leads, carryOut_concat]

/-- A deed is what its call has recorded. -/
lemma Records.entry? {entry : Entry} (records : Records walk walk' entry) (request : Request)
    (answer : Option Bool) : Call.entry? ⟨request, answer, walk, walk'⟩ = some entry := by
  have more : walk.attempt.journal.size < walk'.attempt.journal.size := by
    rw [Journal.size_eq_length, Journal.size_eq_length, records.journal, List.length_append]
    exact Nat.lt_add_one _
  unfold Call.entry?
  rw [if_pos more, records.journal, List.getLast?_concat]

/-- The journal is what the calls have recorded, newest call first, and the agent is where it leads.
-/
structure Transcribed (start : Pose) (walk : Walk) (calls : List (Call Walk)) : Prop where
  recordings : recordings calls.reverse = traced start walk.attempt.journal.toList
  logical : walk.attempt.logical = carryOut start walk.attempt.journal.toList

/-- One more deed is transcribed, too. -/
lemma Transcribed.deed {start : Pose} {calls : List (Call Walk)} {entry : Entry}
    (transcribed : Transcribed start walk calls) (records : Records walk walk' entry)
    (request : Request) (answer : Option Bool) :
    Transcribed start walk' (⟨request, answer, walk, walk'⟩ :: calls) where
  recordings := by
    rw [records.journal, traced_append, ← transcribed.recordings, ← transcribed.logical,
      List.reverse_cons]
    unfold BlockPuzzle.recordings
    rw [List.filterMap_append]
    simp [records.entry?, records.logical, traced]
  logical := records.carriesOut transcribed.logical

/-- All calls are transcribed. -/
lemma noting_keeps_transcribed (board : Board) (rule : SenseRule) (start : Pose) :
    (host board rule).noting.Keeps (fun p => Transcribed start p.1 p.2)
      fun _ p => Transcribed start p.1 p.2 := by
  apply noting_holds
  · intro walk calls walk' request answer block action interrupt transcribed _ records
    exact transcribed.deed records request answer
  · intro walk calls transcribed
    -- the question records nothing
    refine ⟨?_, transcribed.logical⟩
    rw [List.reverse_cons, ← transcribed.recordings]
    unfold BlockPuzzle.recordings
    rw [List.filterMap_append]
    simp [Call.entry?]

end Walk

/-- The execution of a script records its journal, and leads the agent where the journal does; what
is shown and marked for a replay it leaves alone. -/
theorem Attempt.execute_recordings (attempt : Attempt) (board : Board) (settings : Settings)
    (script : String) (unset : attempt.verdict = .unset) (empty : attempt.journal.toList = []) :
    recordings (attempt.calls board settings script) =
        traced attempt.logical (attempt.execute board settings script).2.journal.toList ∧
      (attempt.execute board settings script).2.logical =
        carryOut attempt.logical (attempt.execute board settings script).2.journal.toList ∧
      (attempt.execute board settings script).2.display = attempt.display ∧
      (attempt.execute board settings script).2.marks.animated = attempt.marks.animated := by
  have start : Walk.Transcribed attempt.logical (Walk.start attempt) [] := by
    refine ⟨?_, ?_⟩
    · rw [Walk.start, empty]
      rfl
    · rw [Walk.start, empty]
      rfl
  obtain ⟨walk, report, executed, -, spares, -, ends⟩ := execute_keeps
    (Walk.noting_keeps_transcribed board settings.senseRule attempt.logical) script unset start
  rw [executed]
  have transcribed : Walk.Transcribed attempt.logical walk
      (attempt.calls board settings script).reverse := ends.holds
  refine ⟨?_, transcribed.logical, spares.display, spares.animated⟩
  rw [← transcribed.recordings, List.reverse_reverse]

end BlockPuzzle
