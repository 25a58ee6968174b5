import Mathlib.Data.List.Perm.Subperm
import BlockPuzzle.Proofs.Machine.Blocks
import BlockPuzzle.Proofs.Playback.Course
import BlockPuzzle.Proofs.Program.Calls
import BlockPuzzle.Proofs.Session.Progress

/-!
# The blocks of a session

A run only ever names blocks of the program that its script compiles to, and so does its replay,
however one waits or whatever signals come in: journal, marks and highlights hold no others. As each
of them is marked once, there are no more marks than the program has blocks: `Session.run_covered`.
-/

namespace BlockPuzzle

namespace Walk

open Machine (Ticked)

/-- However a walk ends, it has made some number of ticks. -/
lemma Outcome.ticked {σ : Type} {host : Host σ Interrupt} {budget ticks : Nat} {m : Machine}
    {s s' : σ} {ending : Ending} (outcome : Outcome host budget m s ending ticks s') :
    ∃ m', Ticked host m s m' s' := by
  cases outcome with
  | completed halts =>
    obtain ⟨m', run, -⟩ := halts
    exact ⟨m', run.ticked .rest⟩
  | exhausted run => exact ⟨_, run.ticked .rest⟩
  | failed fails =>
    obtain ⟨before, m1, s1, m2, -, run, -, st⟩ := fails
    -- the tick that fails is one more
    have last := (run.ticked .rest).tick
    rw [st] at last
    exact ⟨m2, last⟩

/-- A walk has recorded entries of some blocks only. -/
def RecordedThrough (blocks : List BlockId) (walk : Walk) : Prop :=
  ∀ entry ∈ walk.attempt.journal.toList, entry.block ∈ blocks

/-- An entry for one of the blocks leaves a walk that has recorded only these. -/
lemma Records.recordedThrough {blocks : List BlockId} {walk walk' : Walk} {entry : Entry}
    (records : Records walk walk' entry) (mem : entry.block ∈ blocks)
    (before : RecordedThrough blocks walk) : RecordedThrough blocks walk' := by
  unfold RecordedThrough
  rw [records.journal]
  exact List.forall_mem_append.2 ⟨before, List.forall_mem_singleton.2 mem⟩

/-- A call through a block adds an entry of this block, also if it interrupts the walk. -/
lemma Results.recordedThrough {α : Type} {blocks : List BlockId} {board : Board} {walk : Walk}
    {block : BlockId} {result : EStateM.Result Interrupt Walk α}
    (results : Results board walk block result) (mem : block ∈ blocks)
    (before : RecordedThrough blocks walk) :
    Leaves (RecordedThrough blocks) (fun _ => RecordedThrough blocks) result := by
  cases results with
  | ok _ records => exact records.recordedThrough mem before
  | error _ records => exact records.recordedThrough mem before

/-- A board that is called through some blocks records entries of these blocks. -/
lemma host_keepsFor (board : Board) (rule : SenseRule) (blocks : List BlockId) :
    (host board rule).KeepsFor blocks (RecordedThrough blocks) where
  command order _ mem := (results_command order).recordedThrough mem
  sense side _ mem := (results_sense rule side).recordedThrough mem
  notDone before := before

end Walk

namespace Session

variable {session ended : Session} {delivered : List Event} {program : Program} {script : String}

/-! ## The journal -/

/-- The journal of a run names blocks of its program. -/
lemma journal_blocks (session : Session) (compiles : Program.compile script = .ok program) :
    ∀ entry ∈ (session.run script).2.attempt.journal.toList, entry.block ∈ program.blockIds := by
  obtain ⟨report, walk, -, left, -, outcome⟩ := session.run_of_compile compiles
  obtain ⟨m, ticked⟩ := outcome.ticked
  rw [left]
  exact ticked.keepsFor (Walk.host_keepsFor _ _ _) fun _ mem => absurd mem List.not_mem_nil

/-- Entries that are shown are entries of the journal. -/
lemma shownEntries_subset (session : Session) (script : String) :
    session.shownEntries script ⊆ (session.run script).2.attempt.journal.toList := by
  intro entry mem
  rw [shownEntries_eq] at mem
  by_cases once : session.settings.dedupe = true
  · rw [if_pos once] at mem
    obtain ⟨⟨other, i⟩, among, is⟩ := List.mem_filterMap.1 mem
    simp only [Option.ite_none_left_eq_some, Option.some.injEq] at is
    exact is.2 ▸ List.fst_mem_of_mem_zipIdx among
  · rw [if_neg once] at mem
    exact mem

/-! ## The replay -/

/-- However one waits after a run, only blocks of its journal are highlighted. -/
lemma Waits.highlights (reachable : session.Reachable)
    (waits : Waits (session.run script).2 [] ended delivered) {block : BlockId}
    (mem : .highlight block ∈ delivered) :
    block ∈ (session.run script).2.attempt.journal.toList.map Entry.block := by
  obtain ⟨q, playing, -⟩ := session.run_plays reachable script
  obtain ⟨beats, -, parts⟩ := waits.keeps Plays.advance playing
  have among := List.mem_append_left (beats.flatMap Beat.events) (List.mem_reverse.2 mem)
  rw [parts] at among
  obtain shown | last := List.mem_append.1 among
  · obtain ⟨⟨entry, pose⟩, is, shows⟩ := List.mem_flatMap.1 shown
    simp only [showEntry, List.mem_cons, Event.highlight.injEq, reduceCtorEq, List.not_mem_nil,
      or_false] at shows
    have entries := List.mem_map_of_mem (f := Prod.fst) is
    rw [map_fst_traced] at entries
    exact List.mem_map.2 ⟨entry, session.shownEntries_subset script entries, shows.symm⟩
  · unfold showEnd at last
    split at last
    · simp at last
    · simp at last

/-- All waiting leaves an account of the run. -/
lemma Waits.accounts (reachable : session.Reachable)
    (waits : Waits (session.run script).2 [] ended delivered) :
    ∃ report, ended.Accounts (session.run script).2.attempt.journal.toList report
      (session.attempt.marks.wipes + 1) := by
  obtain ⟨report, -, accounts⟩ := reachable.accounts_run script
  have running : (session.run script).2.Reachable := .run script reachable
  have kept := waits.keeps (P := fun later _ => later.replay.Reachable ∧ later.Accounts _ report _)
    (fun elapsed kept => ⟨.advance _ _ _ kept.1, kept.2.advance kept.1.steady elapsed _⟩)
    ⟨running.replay, accounts⟩
  exact ⟨report, kept.2⟩

end Session

/-- What is delivered while a session is played is what some waiting delivers; the session is left
as this leaves it, or is reset then. -/
lemma Playback.waits_run (timerFirst : Nat → Bool) (p : Playback) :
    ∃ ended, Session.Waits p.session p.delivered ended (p.run timerFirst).2.delivered ∧
      ((p.run timerFirst).2.session = ended ∨ (p.run timerFirst).2.session = ended.reset) := by
  fun_induction run timerFirst p with
  | case1 p outcome q turn =>
    refine ⟨p.session, delivered_of_ended turn ▸ .refl, ?_⟩
    cases turn_cases turn with
    | drained => exact .inl rfl
    | cancelled => exact .inr rfl
  | case2 p q turn ih =>
    obtain ⟨ended, waits, left⟩ := ih
    obtain ⟨delay, -, ⟨elapsed, -, moved, -⟩ | ⟨time, -, rfl⟩⟩ := next_cases turn
    · rw [moved.session, moved.delivered] at waits
      exact ⟨ended, .advance elapsed waits, left⟩
    · exact ⟨ended, waits, left⟩

/-- Marks are no more than the blocks among which they are. -/
lemma Marks.Exactly.within {marked blocks named : List BlockId} (exactly : Exactly marked blocks)
    (among : blocks ⊆ named) : marked ⊆ named ∧ marked.length ≤ named.length := by
  have subset : marked ⊆ named := fun block mem => among ((exactly.mem_iff block).1 mem)
  exact ⟨subset, (exactly.nodup.subperm subset).length_le⟩

namespace Session

variable {session ended : Session} {delivered : List Event} {program : Program} {script : String}

/-- Marks and highlights of a session name blocks of a program only, and there are no more marks for
either phase than blocks. -/
structure Covered (program : Program) (session : Session) (delivered : List Event) : Prop where
  sensed : session.attempt.marks.sensed ⊆ program.blockIds
  animated : session.attempt.marks.animated ⊆ program.blockIds
  count : ∀ phase, session.attempt.marks.count phase ≤ program.blockIds.length
  highlights : ∀ block, .highlight block ∈ delivered → block ∈ program.blockIds
  shown : session.settings.dedupe = true → session.replay.animated ≤ program.blockIds.length

/-- However one waits after a run, its program covers what is marked and shown. -/
lemma Waits.covered (reachable : session.Reachable)
    (compiles : Program.compile script = .ok program)
    (waits : Waits (session.run script).2 [] ended delivered) :
    Covered program ended delivered := by
  obtain ⟨report, accounts⟩ := waits.accounts reachable
  have named :
      (session.run script).2.attempt.journal.toList.map Entry.block ⊆ program.blockIds := by
    intro block mem
    obtain ⟨entry, is, rfl⟩ := List.mem_map.1 mem
    exact session.journal_blocks compiles entry is
  have sensing : sensing (session.run script).2.attempt.journal.toList ⊆ program.blockIds :=
    fun block mem => named (((List.filter_sublist).map Entry.block).subset mem)
  obtain ⟨sensed, senses⟩ := accounts.sensed.within sensing
  have taken : ((session.run script).2.attempt.journal.toList.take ended.replay.taken).map
      Entry.block ⊆ program.blockIds :=
    fun block mem => named (((List.take_sublist _ _).map Entry.block).subset mem)
  obtain ⟨animated, animates⟩ := accounts.marked.within taken
  refine ⟨sensed, animated, fun phase => ?_, fun block mem => ?_, fun once => ?_⟩
  · cases phase with
    | sense => exact senses
    | animate => exact animates
  · exact named (waits.highlights reachable mem)
  · have shown := accounts.animated
    rw [if_pos once, ← accounts.marked.length_eq] at shown
    rw [shown]
    exact animates

/-- A reset leaves no marks, and nothing is shown behind it. -/
lemma Covered.reset (covered : Covered program session delivered) :
    Covered program session.reset delivered where
  sensed := List.nil_subset _
  animated := List.nil_subset _
  count phase := by
    cases phase with
    | sense => exact Nat.zero_le _
    | animate => exact Nat.zero_le _
  highlights := covered.highlights
  shown := covered.shown

/-- Whatever signals come in while the replay of a run is played, its program covers what is marked
and shown. -/
lemma play_covered (reachable : session.Reachable)
    (compiles : Program.compile script = .ok program) (timerFirst : Nat → Bool) (first : Bool)
    (signals : List (Nat × Signal)) (sleep : Sleep) :
    let played := ((session.run script).2.play timerFirst first signals [] sleep).2
    Covered program played.session played.delivered := by
  cases first with
  | true =>
    have start : Waits (session.run script).2 [] (session.run script).2 [] := .refl
    exact (start.covered reachable compiles).reset
  | false =>
    intro played
    obtain ⟨ended, waits, left⟩ := Playback.waits_run timerFirst
      ((session.run script).2.opening signals [] sleep)
    have covered := waits.covered reachable compiles
    have played_session : played.session = ended ∨ played.session = ended.reset := left
    obtain same | same := played_session
    · rw [same]
      exact covered
    · rw [same]
      exact covered.reset

/-- The calls of a run are made through blocks of its program. -/
lemma calls_blocks (session : Session) (compiles : Program.compile script = .ok program) :
    MadeThrough program.blockIds (session.calls script) := by
  obtain ⟨ticks, -, outcome⟩ := Walk.runOn_outcome
    (Walk.host session.level.board session.settings.senseRule).noting
    session.settings.tickBudget.toNat 0
    (Machine.load program session.settings.maxCallDepth.toNat)
    (Walk.start session.reset.attempt, [])
  obtain ⟨m, ticked⟩ := outcome.ticked
  have noted := ticked.calls
  intro call mem
  rw [calls, Attempt.calls, compiles] at mem
  exact noted call (List.mem_reverse.1 mem)

open Machine (Ticked load)

/-- The blocks of a program, which are found without running it, cover all that comes of it: on any
host and in any number of ticks its machine makes calls through these blocks only, and so does a run
of its script. However one waits behind the run, or whatever signals come in and however long sleeps
last, these are the blocks that are recorded, marked and highlighted; and there are no more marks for a
phase, nor steps that are shown once for each block, than the program has blocks. -/
theorem run_covered {script : String} {program : Program}
    (compiles : Program.compile script = .ok program) :
    (∀ {σ ε : Type} {host : Host σ ε} {limit : Nat} {m : Machine} {s s' : σ}
      {calls : List (Call σ)}, Ticked host.noting (load program limit) (s, []) m (s', calls) →
      ∀ call ∈ calls, ∀ block ∈ call.request.block?, block ∈ program.blockIds) ∧
    ∀ {session : Session}, session.Reachable →
      (∀ call ∈ session.calls script, ∀ block ∈ call.request.block?, block ∈ program.blockIds) ∧
      (∀ entry ∈ (session.run script).2.attempt.journal.toList,
        entry.block ∈ program.blockIds) ∧
      (∀ {ended delivered}, Waits (session.run script).2 [] ended delivered →
        Covered program ended delivered) ∧
      ∀ (timerFirst : Nat → Bool) (first : Bool) (signals : List (Nat × Signal)) (sleep : Sleep),
        let played := ((session.run script).2.play timerFirst first signals [] sleep).2
        Covered program played.session played.delivered :=
  ⟨Ticked.calls, fun {session} reachable =>
    ⟨session.calls_blocks compiles, session.journal_blocks compiles,
      fun waits => waits.covered reachable compiles, play_covered reachable compiles⟩⟩

/-- A look and a step in the corridor, replayed to the end: two blocks are all there is to mark. -/
theorem run_covered_corridor :
    ∃ program, Program.compile "(if (path-ahead b) (move-forward a))" = .ok program ∧
      corridor.Reachable ∧ program.blockIds = ["a", "b"] ∧
      let ran := (corridor.run "(if (path-ahead b) (move-forward a))").2
      Covered program (ran.replayToEnd 0 []).session (ran.replayToEnd 0 []).delivered := by
  have reads : Form.readAll "(if (path-ahead b) (move-forward a))" =
      .ok [.list [.symbol "if", .list [.symbol "path-ahead", .symbol "b"],
        .list [.symbol "move-forward", .symbol "a"]]] := by
    with_unfolding_all rfl
  have compiles : Program.compile "(if (path-ahead b) (move-forward a))" = .ok
      ⟨"anonymous", [.branch [.mk (.path .ahead "b") [.command .moveForward "a"]] none], []⟩ :=
    (Program.compile_iff reads).2 rfl
  have listed : Program.blockIds ⟨"anonymous",
      [.branch [.mk (.path .ahead "b") [.command .moveForward "a"]] none], []⟩ = ["a", "b"] := by
    rw [Program.blockIds, show Program.blocks _ = ["b", "a"] from rfl]
    simp [List.mergeSort, List.eraseDups_cons]
  obtain ⟨-, sessions⟩ := run_covered compiles
  obtain ⟨-, -, waits, -⟩ := sessions corridor_reachable
  exact ⟨_, compiles, corridor_reachable, listed, waits (.replayToEnd 0 .refl)⟩

end Session

end BlockPuzzle
