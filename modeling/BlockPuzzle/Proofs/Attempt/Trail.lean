import BlockPuzzle.Proofs.Attempt.Run
import BlockPuzzle.Proofs.Board.Trail

/-!
# Agents on the trail

An agent that starts at START never leaves the trail: it has made the steps of the trail up to the
point where it stands (`Walk.OnTrail`), until it arrives at FINISH, which ends the walk
(`Walk.Arrived`). Each deed keeps this; `Attempt.execute_followsTrail` is what follows for the
execution of a script.
-/

namespace BlockPuzzle

/-- The step that an entry tells of, if it tells of one. -/
def Entry.move? (entry : Entry) : Option (Point × Point) :=
  match entry.action with
  | .move source target => some (source, target)
  | _ => none

/-- The steps that the journal of an attempt tells of, oldest first. -/
def Attempt.moves (attempt : Attempt) : List (Point × Point) :=
  attempt.journal.toList.filterMap Entry.move?

/-- The report and the attempt that a script leaves, and the calls it has made, keep to the trail.
-/
structure Attempt.FollowsTrail (board : Board) (before : Attempt) (calls : List (Call Walk))
    (report : Report) (attempt : Attempt) : Prop where
  linked : ∃ walk, Linked (Walk.start before) calls walk ∧
    attempt = { walk.attempt with verdict := report.verdict }
  moves : attempt.moves <+: steps board.trail
  places : ∀ call ∈ calls, call.before.attempt.logical.position ∈ board.trail ∧
    call.after.attempt.logical.position ∈ board.trail
  place : attempt.logical.position ∈ board.trail
  questions : ∀ call ∈ calls, call.request = .notDone → call.answer = some true
  success_iff_finish : report.verdict = .success ↔ attempt.logical.position = board.finish
  finish_iff_all : attempt.logical.position = board.finish ↔
    attempt.moves.length = (steps board.trail).length
  ending : report.verdict = .success → report.ending = .finished
  last : report.verdict = .success → ∃ block source,
    attempt.journal.toList.getLast? = some ⟨block, .move source board.finish⟩

namespace Board

variable {board : Board} {p : Point} {path : List Point}

/-- A route begins where it starts from. -/
lemma Route.head (route : board.Route p path) : ∃ rest, path = p :: rest := by
  cases route with
  | arrived => exact ⟨_, rfl⟩
  | step => exact ⟨_, rfl⟩

/-- The route from FINISH has no steps. -/
lemma Route.eq_of_finish (route : board.Route board.finish path) : path = [board.finish] := by
  cases route with
  | arrived => rfl
  | step ne => exact absurd rfl ne

/-- A route has steps until FINISH. -/
lemma Route.tail_ne_nil (route : board.Route p (p :: path)) (ne : p ≠ board.finish) :
    path ≠ [] := by
  cases route with
  | arrived => exact absurd rfl ne
  | step _ _ _ route =>
    obtain ⟨rest, rfl⟩ := route.head
    exact List.cons_ne_nil _ _

/-- A route goes on through any clear passage. -/
lemma Route.passage {toward : Bearing} (route : board.Route p (p :: path)) (ne : p ≠ board.finish)
    (clear : board.passage p toward = .clear) : board.Route (p.step toward) path := by
  cases route with
  | arrived => exact absurd rfl ne
  | step _ expected _ route =>
    rw [(passage_eq_clear_iff.1 clear).1] at expected
    cases expected
    exact route

end Board

namespace Walk

variable {board : Board} {walk walk' : Walk} {block : BlockId} {action : Action}

/-- The agent has made the steps of the trail up to where it stands, and has some left to make. -/
def OnTrail (board : Board) (walk : Walk) : Prop :=
  ∃ behind ahead, board.trail = behind ++ walk.attempt.logical.position :: ahead ∧
    board.Route walk.attempt.logical.position (walk.attempt.logical.position :: ahead) ∧
    walk.attempt.logical.position ≠ board.finish ∧
    walk.attempt.moves = steps (behind ++ [walk.attempt.logical.position])

/-- The agent has made all steps of the trail, and nothing since. -/
structure Arrived (board : Board) (walk : Walk) : Prop where
  position : walk.attempt.logical.position = board.finish
  mem : board.finish ∈ board.trail
  moves : walk.attempt.moves = steps board.trail
  last : ∃ block source,
    walk.attempt.journal.toList.getLast? = some ⟨block, .move source board.finish⟩

/-- A recorded step comes after all others. -/
lemma Records.moves {entry : Entry} (records : Records walk walk' entry) :
    walk'.attempt.moves = walk.attempt.moves ++ entry.move?.toList := by
  unfold Attempt.moves
  rw [records.journal, List.filterMap_append]
  cases e : entry.move? with
  | none => simp [e]
  | some => simp [e]

/-- An agent that does not move stays where it is on the trail. -/
lemma OnTrail.stay (on : OnTrail board walk)
    (position : walk'.attempt.logical.position = walk.attempt.logical.position)
    (moves : walk'.attempt.moves = walk.attempt.moves) : OnTrail board walk' := by
  unfold OnTrail
  rw [position, moves]
  exact on

/-- What is left of the trail behind a clear passage. -/
lemma OnTrail.passage {toward : Bearing} (on : OnTrail board walk)
    (clear : board.passage walk.attempt.logical.position toward = .clear) :
    ∃ behind ahead, board.trail = behind ++ walk.attempt.logical.position ::
        walk.attempt.logical.position.step toward :: ahead ∧
      board.Route (walk.attempt.logical.position.step toward)
        (walk.attempt.logical.position.step toward :: ahead) ∧
      walk.attempt.moves = steps (behind ++ [walk.attempt.logical.position]) := by
  obtain ⟨behind, ahead, trail, route, ne, moves⟩ := on
  have next := route.passage ne clear
  obtain ⟨ahead, rfl⟩ := next.head
  exact ⟨behind, ahead, trail, next, moves⟩

/-- A deed that ends nothing keeps an agent on the trail. -/
lemma OnTrail.deed (on : OnTrail board walk) (does : Deed board walk.attempt.logical action none)
    (records : Records walk walk' ⟨block, action⟩) : OnTrail board walk' := by
  have position := congrArg Pose.position records.logical
  have moves := records.moves
  cases does with
  | move clear ne =>
    -- the one step that is open is the next one of the trail
    obtain ⟨behind, ahead, trail, route, made⟩ := on.passage clear
    simp only [Action.apply] at position
    simp only [Entry.move?, Option.toList_some, made] at moves
    unfold OnTrail
    rw [position, moves]
    refine ⟨behind ++ [walk.attempt.logical.position], ahead, ?_, route, ne, ?_⟩
    · rw [trail, List.append_assoc, List.singleton_append]
    · rw [← steps_snoc, List.append_assoc, List.singleton_append]
  | turnLeft => exact on.stay position (by simpa [Entry.move?] using moves)
  | turnRight => exact on.stay position (by simpa [Entry.move?] using moves)
  | sense => exact on.stay position (by simpa [Entry.move?] using moves)

/-- A deed that ends the walk leaves the agent on the trail, unless it is the arrival at FINISH. -/
lemma OnTrail.last {interrupt : Interrupt} (on : OnTrail board walk)
    (does : Deed board walk.attempt.logical action (some interrupt))
    (records : Records walk walk' ⟨block, action⟩) :
    OnTrail board walk' ∨ interrupt = .finish ∧ Arrived board walk' := by
  have position := congrArg Pose.position records.logical
  have moves := records.moves
  cases does with
  | arrive clear there =>
    obtain ⟨behind, ahead, trail, route, made⟩ := on.passage clear
    simp only [Action.apply] at position
    simp only [Entry.move?, Option.toList_some, made] at moves
    -- behind FINISH the route has nothing left, so this was the last step
    rw [there] at trail route
    obtain rfl : ahead = [] := (List.cons.inj route.eq_of_finish).2
    refine .inr ⟨rfl, position, ?_, ?_, block, walk.attempt.logical.position, ?_⟩
    · rw [trail]
      simp
    · rw [moves, trail, steps_snoc]
    · rw [records.journal, List.getLast?_concat]
  | bump => exact .inl (on.stay position (by simpa [Entry.move?] using moves))
  | finish => exact .inl (on.stay position (by simpa [Entry.move?] using moves))

/-- An agent on the trail is at a point of it. -/
lemma OnTrail.mem (on : OnTrail board walk) : walk.attempt.logical.position ∈ board.trail := by
  obtain ⟨behind, ahead, trail, -⟩ := on
  rw [trail]
  simp

/-- It has not come to FINISH yet. -/
lemma OnTrail.ne_finish (on : OnTrail board walk) :
    walk.attempt.logical.position ≠ board.finish := by
  obtain ⟨_, _, -, -, ne, -⟩ := on
  exact ne

/-- An agent on the trail has made the first steps of it. -/
lemma OnTrail.moves_prefix (on : OnTrail board walk) :
    walk.attempt.moves <+: steps board.trail := by
  obtain ⟨behind, ahead, trail, -, -, moves⟩ := on
  rw [moves, trail]
  exact steps_prefix behind ahead _

/-- So it has made fewer moves than the trail has steps. -/
lemma OnTrail.length_lt (on : OnTrail board walk) :
    walk.attempt.moves.length < (steps board.trail).length := by
  obtain ⟨behind, ahead, trail, route, ne, moves⟩ := on
  have pos := List.length_pos_iff.2 (route.tail_ne_nil ne)
  rw [moves, trail, length_steps, length_steps]
  simp only [List.length_append, List.length_cons, List.length_nil]
  omega

/-- A call from one point of the trail to another; to the question whether FINISH is still to be
reached the answer is that it is. -/
structure Keeping (board : Board) (call : Call Walk) : Prop where
  before : call.before.attempt.logical.position ∈ board.trail
  after : call.after.attempt.logical.position ∈ board.trail
  answer : call.request = .notDone → call.answer = some true

/-- All calls keep an agent to the trail. -/
lemma noting_keeps_trail (board : Board) (rule : SenseRule) :
    (host board rule).noting.Keeps
      (fun p => OnTrail board p.1 ∧ ∀ call ∈ p.2, Keeping board call)
      (fun interrupt p => (OnTrail board p.1 ∨ interrupt = .finish ∧ Arrived board p.1) ∧
        ∀ call ∈ p.2, Keeping board call) := by
  refine noting_keeps ?_ ?_ ?_
  · rintro walk calls walk' request answer block action ⟨on, kept⟩ ne does records
    have on' := on.deed does records
    exact ⟨on', List.forall_mem_cons.2 ⟨⟨on.mem, on'.mem, fun e => absurd e ne⟩, kept⟩⟩
  · rintro walk calls walk' request answer block action interrupt ⟨on, kept⟩ ne does records
    have ends := on.last does records
    refine ⟨ends, List.forall_mem_cons.2 ⟨⟨on.mem, ?_, fun e => absurd e ne⟩, kept⟩⟩
    obtain on' | ⟨-, arrived⟩ := ends
    · exact on'.mem
    · rw [arrived.position]
      exact arrived.mem
  · rintro walk calls ⟨on, kept⟩
    refine ⟨on, List.forall_mem_cons.2 ⟨⟨on.mem, on.mem, fun _ => ?_⟩, kept⟩⟩
    have unreached : board.isFinish walk.attempt.logical.position = false :=
      Bool.eq_false_iff.2 fun e => on.ne_finish (isFinish_iff.1 e)
    rw [unreached]
    rfl

end Walk

namespace Attempt

variable {board : Board} {attempt : Attempt} {settings : Settings} {script : String}

/-- Success means that the agent is at FINISH. -/
lemma classify_eq_success {ending : Ending} {position finish : Point}
    (success : ending.classify position finish = .success) : position = finish := by
  cases ending with
  | finished => simpa [Ending.classify] using success
  | completed => simpa [Ending.classify] using success
  | crashed => cases success
  | exhausted => cases success
  | fault => cases success

/-- The execution of a script keeps to the trail, from START on. -/
theorem execute_followsTrail (route : board.Route board.start board.trail)
    (ne : board.start ≠ board.finish) (unset : attempt.verdict = .unset)
    (start : attempt.logical.position = board.start) (empty : attempt.journal.toList = []) :
    FollowsTrail board attempt (attempt.calls board settings script)
      (attempt.execute board settings script).1 (attempt.execute board settings script).2 := by
  have on : Walk.OnTrail board (Walk.start attempt) := by
    obtain ⟨ahead, trail⟩ := route.head
    refine ⟨[], ahead, ?_, ?_, ?_, ?_⟩
    · rw [trail, Walk.start, start, List.nil_append]
    · rw [Walk.start, start, ← trail]
      exact route
    · rwa [Walk.start, start]
    · simp [Walk.start, moves, empty, steps]
  obtain ⟨walk, report, executed, verdict, -, linked, ends⟩ :=
    execute_keeps (Walk.noting_keeps_trail board settings.senseRule) script unset
      ⟨on, List.forall_mem_nil _⟩
  rw [executed]
  -- an end that the machine makes leaves the agent on the trail; only an interrupt can be an arrival
  obtain ⟨done, kept⟩ :
      (Walk.OnTrail board walk ∨ report.ending = .finished ∧ Walk.Arrived board walk) ∧
      ∀ call ∈ attempt.calls board settings script, Walk.Keeping board call := by
    obtain ⟨-, -, on, kept⟩ | ⟨interrupt, ending, done, kept⟩ := ends
    · exact ⟨.inl on, by simpa using kept⟩
    · refine ⟨done.imp_right ?_, by simpa using kept⟩
      rintro ⟨rfl, arrived⟩
      exact ⟨ending, arrived⟩
  have places : ∀ call ∈ attempt.calls board settings script,
      call.before.attempt.logical.position ∈ board.trail ∧
      call.after.attempt.logical.position ∈ board.trail :=
    fun call mem => ⟨(kept call mem).before, (kept call mem).after⟩
  obtain on | ⟨ending, arrived⟩ := done
  · have unfinished : report.verdict ≠ .success := fun success =>
      on.ne_finish (classify_eq_success (verdict.symm.trans success))
    exact {
      linked := ⟨walk, linked, rfl⟩
      moves := on.moves_prefix
      places
      place := on.mem
      questions := fun call mem => (kept call mem).answer
      success_iff_finish := iff_of_false unfinished on.ne_finish
      finish_iff_all := iff_of_false on.ne_finish (Nat.ne_of_lt on.length_lt)
      ending := fun success => absurd success unfinished
      last := fun success => absurd success unfinished }
  · have success : report.verdict = .success := by
      rw [verdict, ending, arrived.position, Ending.classify, if_pos rfl]
    exact {
      linked := ⟨walk, linked, rfl⟩
      moves := arrived.moves ▸ List.prefix_rfl
      places
      place := arrived.position ▸ arrived.mem
      questions := fun call mem => (kept call mem).answer
      success_iff_finish := iff_of_true success arrived.position
      finish_iff_all := iff_of_true arrived.position (congrArg List.length arrived.moves)
      ending := fun _ => ending
      last := fun _ => arrived.last }

end Attempt

end BlockPuzzle
