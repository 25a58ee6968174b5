import BlockPuzzle.Proofs.Machine.Calls
import BlockPuzzle.Proofs.Machine.Frames
import BlockPuzzle.Proofs.Program.Looks

/-!
# What ticks add to a journal

Some hosts add an entry to a journal for every command and for every look (`Host.Journals`). The next
tick of a machine is about one thing (`Machine.errand`), so it adds one entry for a command, at most one
for each look that a condition asks for, and otherwise none. A machine only opens frames of its program,
so no tick adds more than `Program.entriesPerTick`, and a run of some ticks no more than as many times
that: `Machine.Runs.entries_le`.
-/

namespace BlockPuzzle

variable {σ ε α : Type}

/-! ## Errands -/

/-- How many looks the end of a pass asks for. -/
def FrameKind.looks : FrameKind → Nat
  | block => 0
  | procedure => 0
  | loop _ => 0
  | whileHolds condition => condition.looks
  | forever => 0

/-- What a tick is about: a statement, the end of a pass of a frame, or nothing. -/
inductive Errand where
  | nothing
  | statement (statement : Statement)
  | endOfPass (kind : FrameKind)

namespace Errand

/-- An errand without a command or a condition. -/
inductive IsQuiet : Errand → Prop where
  | nothing :
    IsQuiet .nothing
  | loop {times body} :
    IsQuiet (.statement (.loop times body))
  | forever {body} :
    IsQuiet (.statement (.forever body))
  | call {index} :
    IsQuiet (.statement (.call index))
  | endOfBlock :
    IsQuiet (.endOfPass .block)
  | endOfProcedure :
    IsQuiet (.endOfPass .procedure)
  | endOfLoop {remaining} :
    IsQuiet (.endOfPass (.loop remaining))
  | endOfForever :
    IsQuiet (.endOfPass .forever)

/-- The most entries that an errand adds to a journal. -/
def entries : Errand → Nat
  | .nothing => 0
  | .statement (.command _ _) => 1
  | .statement s => s.looks
  | .endOfPass kind => kind.looks

end Errand

/-- What the next tick of a machine is about. -/
def Machine.errand (m : Machine) : Errand :=
  if m.completed then .nothing
  else
    match m.frames with
    | [] => .nothing
    | frame :: _ =>
      match frame.body[frame.index]? with
      | some statement => .statement statement
      | none => .endOfPass frame.kind

/-! ## Conditions -/

/-- A host adds one entry for every command and for every look, also for those that fail, and none for the
question whether all is done; `entries` counts them. -/
structure Host.Journals (host : Host σ ε) (entries : σ → Nat) : Prop where
  command {s} (order : Command) (block : BlockId) :
    Leaves (entries · = entries s + 1) (fun _ s' => entries s' = entries s + 1)
      (host.command order block s)
  sense {s} (side : Side) (block : BlockId) :
    Leaves (entries · = entries s + 1) (fun _ s' => entries s' = entries s + 1)
      (host.sense side block s)
  notDone {s} :
    Leaves (entries · = entries s) (fun _ s' => entries s' = entries s) (host.notDone s)

/-- A call leaves at most so many entries, whether it fails or not. -/
def AtMost (entries : σ → Nat) (most : Nat) (result : EStateM.Result ε σ α) : Prop :=
  Leaves (entries · ≤ most) (fun _ s => entries s ≤ most) result

section

variable {host : Host σ ε} {entries : σ → Nat} {most more : Nat}

/-- A call that adds no entry leaves at most as many as there were. -/
lemma AtMost.of_eq {result : EStateM.Result ε σ α} {n : Nat}
    (left : Leaves (entries · = n) (fun _ s => entries s = n) result) (le : n ≤ most) :
    AtMost entries most result := by
  cases result with
  | ok value s => exact (Nat.le_of_eq left).trans le
  | error e s => exact (Nat.le_of_eq left).trans le

/-- What goes on from an answer may leave more than the answer did. -/
lemma AtMost.bind {β : Type} {x : EStateM ε σ α} {f : α → EStateM ε σ β} {s : σ}
    (first : AtMost entries most (x s)) (le : most ≤ more)
    (rest : ∀ value s, entries s ≤ most → AtMost entries more (f value s)) :
    AtMost entries more ((x >>= f) s) := by
  simp only [Bind.bind, EStateM.bind]
  generalize x s = result at first
  cases result with
  | ok value s => exact rest value s first
  | error e s => exact Nat.le_trans first le

mutual

/-- Answering a condition adds no more entries than it can look. -/
theorem Condition.eval_atMost (journals : host.Journals entries) {most : Nat} {s : σ}
    (before : entries s ≤ most) : ∀ condition : Condition,
      AtMost entries (most + condition.looks) (condition.eval host s)
  | .literal _ => before
  | .path side block => .of_eq (journals.sense side block) (Nat.add_le_add_right before 1)
  | .notDone => .of_eq journals.notDone before
  | .negation inner =>
    (inner.eval_atMost journals before).bind (Nat.le_refl _) fun _ _ left => left
  | .all items => evalAll_atMost journals before items
  | .any items => evalAny_atMost journals before items

/-- So does answering conditions until one fails. -/
theorem evalAll_atMost (journals : host.Journals entries) {most : Nat} {s : σ}
    (before : entries s ≤ most) : ∀ items : List Condition,
      AtMost entries (most + conditionsLooks items) (evalAll host items s)
  | [] => before
  | item :: items => by
    rw [conditionsLooks, ← Nat.add_assoc]
    refine (item.eval_atMost journals before).bind (Nat.le_add_right _ _) fun value s left => ?_
    cases value with
    | true => exact evalAll_atMost journals left items
    | false => exact left.trans (Nat.le_add_right _ _)

/-- So does answering conditions until one holds. -/
theorem evalAny_atMost (journals : host.Journals entries) {most : Nat} {s : σ}
    (before : entries s ≤ most) : ∀ items : List Condition,
      AtMost entries (most + conditionsLooks items) (evalAny host items s)
  | [] => before
  | item :: items => by
    rw [conditionsLooks, ← Nat.add_assoc]
    refine (item.eval_atMost journals before).bind (Nat.le_add_right _ _) fun value s left => ?_
    cases value with
    | true => exact left.trans (Nat.le_add_right _ _)
    | false => exact evalAny_atMost journals left items

end

/-- Choosing an arm asks for the looks of all arms at most. -/
lemma chooseArm_atMost (journals : host.Journals entries) (otherwise : Option (List Statement))
    (arms : List Arm) {s : σ} (before : entries s ≤ most) :
    AtMost entries (most + armsLooks arms) (chooseArm host otherwise arms s) := by
  induction arms generalizing s most with
  | nil => exact before
  | cons arm arms ih =>
    rw [armsLooks, ← Nat.add_assoc]
    refine (arm.condition.eval_atMost journals before).bind (Nat.le_add_right _ _)
      fun value s left => ?_
    cases value with
    | true => exact left.trans (Nat.le_add_right _ _)
    | false => exact ih left

end

/-! ## Ticks -/

namespace Machine

/-- Entering a body makes no calls. -/
lemma enter_host (m : Machine) (kind : FrameKind) (body : List Statement) (s : σ) :
    (m.enter kind body s : Tick σ ε).host = s := by
  unfold enter
  cases m.room <;> rfl

/-- A statement without a command or a condition makes no calls. -/
lemma run_quiet {statement : Statement} (quiet : (Errand.statement statement).IsQuiet)
    (host : Host σ ε) (m : Machine) (s : σ) : (run host m statement s).host = s := by
  cases quiet with
  | @loop times body =>
    rw [run]
    by_cases zero : times = 0
    · rw [if_pos zero]
      rfl
    · rw [if_neg zero, enter_host]
  | forever => exact enter_host _ _ _ s
  | @call index =>
    rw [run]
    cases m.procedures[index]? with
    | some procedure => exact enter_host _ _ _ s
    | none => rfl

/-- The end of a pass makes no calls if it asks no condition. -/
lemma endPass_quiet {frame : Frame} (quiet : (Errand.endOfPass frame.kind).IsQuiet)
    (host : Host σ ε) (m : Machine) (outer : List Frame) (s : σ) :
    (endPass host m frame outer s).host = s := by
  obtain ⟨kind, body, index⟩ := frame
  cases quiet with
  | endOfBlock => rfl
  | endOfProcedure => rfl
  | @endOfLoop remaining =>
    simp only [endPass]
    by_cases last : remaining - 1 = 0
    · rw [if_pos last]
      rfl
    · rw [if_neg last]
      rfl
  | endOfForever => rfl

section

variable {host : Host σ ε} {entries : σ → Nat} {s : σ}

/-- A statement adds an entry if it is a command, and otherwise one for each look at most. -/
lemma entries_run_le (journals : host.Journals entries) (m : Machine) (statement : Statement) :
    entries (run host m statement s).host ≤ entries s + (Errand.statement statement).entries := by
  have unchanged : (Errand.statement statement).IsQuiet →
      entries (run host m statement s).host ≤ entries s + (Errand.statement statement).entries := by
    intro quiet
    rw [run_quiet quiet]
    exact Nat.le_add_right _ _
  cases statement with
  | command order block =>
    have left : AtMost entries (entries s + 1) _ :=
      .of_eq (journals.command order block) (Nat.le_refl _)
    simp only [run]
    generalize host.command order block s = result at left
    cases result with
    | ok _ s => exact left
    | error e s => exact left
  | loop => exact unchanged .loop
  | whileHolds condition body =>
    have left := condition.eval_atMost journals (Nat.le_refl (entries s))
    simp only [run]
    generalize condition.eval host s = result at left
    cases result with
    | ok value s =>
      cases value with
      | true =>
        simp only [enter_host]
        exact left
      | false => exact left
    | error e s => exact left
  | forever => exact unchanged .forever
  | branch arms otherwise =>
    have left := chooseArm_atMost journals otherwise arms (Nat.le_refl (entries s))
    simp only [run]
    generalize chooseArm host otherwise arms s = result at left
    cases result with
    | ok chosen s =>
      cases chosen with
      | some body =>
        simp only [enter_host]
        exact left
      | none => exact left
    | error e s => exact left
  | call => exact unchanged .call

/-- The end of a pass adds an entry for each look at most. -/
lemma entries_endPass_le (journals : host.Journals entries) (m : Machine) (frame : Frame)
    (outer : List Frame) :
    entries (endPass host m frame outer s).host ≤ entries s + frame.kind.looks := by
  have unchanged : (Errand.endOfPass frame.kind).IsQuiet →
      entries (endPass host m frame outer s).host ≤ entries s + frame.kind.looks := by
    intro quiet
    rw [endPass_quiet quiet]
    exact Nat.le_add_right _ _
  obtain ⟨kind, body, index⟩ := frame
  cases kind with
  | block => exact unchanged .endOfBlock
  | procedure => exact unchanged .endOfProcedure
  | loop => exact unchanged .endOfLoop
  | whileHolds condition =>
    have left := condition.eval_atMost journals (Nat.le_refl (entries s))
    simp only [endPass]
    generalize condition.eval host s = result at left
    cases result with
    | ok value s =>
      cases value with
      | true => exact left
      | false => exact left
    | error e s => exact left
  | forever => exact unchanged .endOfForever

end

/-- A tick does what it is about. -/
lemma tick_cases (host : Host σ ε) (m : Machine) (s : σ) :
    (m.errand = .nothing ∧ (m.tick host s).host = s) ∨
      (∃ moved statement, m.errand = .statement statement ∧
        m.tick host s = run host moved statement s) ∨
      ∃ frame outer, m.errand = .endOfPass frame.kind ∧
        m.tick host s = endPass host m frame outer s := by
  unfold errand tick
  by_cases completed : m.completed = true
  · rw [if_pos completed, if_pos completed]
    exact .inl ⟨rfl, rfl⟩
  rw [if_neg completed, if_neg completed]
  cases m.frames with
  | nil => exact .inl ⟨rfl, rfl⟩
  | cons frame outer =>
    simp only
    cases frame.body[frame.index]? with
    | some statement => exact .inr (.inl ⟨_, statement, rfl, rfl⟩)
    | none => exact .inr (.inr ⟨frame, outer, rfl, rfl⟩)

variable {m m' : Machine} {host : Host σ ε} {entries : σ → Nat} {s s' : σ} {program : Program}

/-- A tick about a command leaves what the call does. -/
lemma tick_command {order : Command} {block : BlockId} {I : σ → Prop}
    (is : m.errand = .statement (.command order block))
    (leaves : Leaves I (fun _ => I) (host.command order block s)) : I (m.tick host s).host := by
  obtain ⟨nothing, -⟩ | ⟨moved, statement, same, ticks⟩ | ⟨frame, outer, ends, -⟩ :=
    tick_cases host m s
  · cases is.symm.trans nothing
  · cases is.symm.trans same
    rw [ticks, run]
    generalize host.command order block s = result at leaves
    cases result with
    | ok _ s => exact leaves
    | error e s => exact leaves
  · cases is.symm.trans ends

/-- A tick without a command or a condition makes no calls. -/
lemma tick_quiet (quiet : m.errand.IsQuiet) (host : Host σ ε) (s : σ) :
    (m.tick host s).host = s := by
  obtain ⟨-, idle⟩ | ⟨moved, statement, is, ticks⟩ | ⟨frame, outer, is, ticks⟩ :=
    tick_cases host m s
  · exact idle
  · rw [ticks, run_quiet (is ▸ quiet)]
  · rw [ticks, endPass_quiet (is ▸ quiet)]

/-- A tick adds no more entries than it is about. -/
lemma entries_tick_le (journals : host.Journals entries) (m : Machine) (s : σ) :
    entries (m.tick host s).host ≤ entries s + m.errand.entries := by
  obtain ⟨nothing, idle⟩ | ⟨moved, statement, is, ticks⟩ | ⟨frame, outer, is, ticks⟩ :=
    tick_cases host m s
  · rw [nothing, idle]
    exact Nat.le_refl _
  · rw [is, ticks]
    exact entries_run_le journals moved statement
  · rw [is, ticks]
    exact entries_endPass_le journals m frame outer

end Machine

/-! ## Runs -/

/-- A body that is open in a program consists of its statements, and the end of a pass asks for no more
looks than one of these. -/
lemma Program.Unfolds.within {program : Program} {kind : FrameKind} {body : List Statement}
    (unfolds : program.Unfolds kind body) :
    bodyStatements body ⊆ program.statements ∧ kind.looks ≤ program.entriesPerTick := by
  induction unfolds with
  | main => exact ⟨List.subset_append_left _ _, Nat.zero_le _⟩
  | @opened kind body statement kind' body' _ is opens ih =>
    obtain ⟨here, inside⟩ := List.cons_subset.1 (List.Subset.trans (subset_bodyStatements is) ih.1)
    cases opens with
    | loop => exact ⟨inside, Nat.zero_le _⟩
    | whileHolds => exact ⟨inside, Program.looks_le here⟩
    | forever => exact ⟨inside, Nat.zero_le _⟩
    | arm among =>
      have arms := (List.append_subset.1 inside).1
      exact ⟨List.Subset.trans (subset_armsStatements among) arms, Nat.zero_le _⟩
    | otherwise => exact ⟨(List.append_subset.1 inside).2, Nat.zero_le _⟩
    | call called => exact ⟨Program.subset_statements (List.mem_of_getElem? called), Nat.zero_le _⟩
  | repeated _ repeats ih =>
    cases repeats with
    | forever => exact ih
    | loop => exact ih
    | whileHolds => exact ih

namespace Machine

variable {m m' : Machine} {host : Host σ ε} {entries : σ → Nat} {s s' : σ} {program : Program}

/-- A tick of a program is about a statement of it, or the end of a pass of one. -/
lemma Of.entries_le (of : m.Of program) : m.errand.entries ≤ program.entriesPerTick := by
  unfold errand
  by_cases completed : m.completed = true
  · rw [if_pos completed]
    exact Nat.zero_le _
  rw [if_neg completed]
  cases frames : m.frames with
  | nil => exact Nat.zero_le _
  | cons frame outer =>
    obtain ⟨within, ends⟩ := (of.frames frame (frames ▸ List.mem_cons_self)).within
    simp only
    cases next : frame.body[frame.index]? with
    | none => exact ends
    | some statement =>
      have here := subset_bodyStatements (List.mem_of_getElem? next) List.mem_cons_self
      have looks := Program.looks_le (within here)
      cases statement with
      | command => exact program.one_le_entriesPerTick
      | _ => exact looks

/-- Every tick of a program adds at most as many entries as one of its ticks can add. -/
lemma Of.entries_tick_le (of : m.Of program) (journals : host.Journals entries) (s : σ) :
    entries (m.tick host s).host ≤ entries s + program.entriesPerTick :=
  (Machine.entries_tick_le journals m s).trans (Nat.add_le_add_left of.entries_le _)

/-- So many ticks of a program add at most as many times what one of them can add. -/
theorem Runs.entries_le {n : Nat} (run : Runs host n m s m' s') (of : m.Of program)
    (journals : host.Journals entries) :
    m'.Of program ∧ entries s' ≤ entries s + n * program.entriesPerTick := by
  induction run with
  | rest => exact ⟨of, by simp⟩
  | @tick n m s m1 s1 m2 s2 work st _ ih =>
    have ticks := m.ticks host s
    have first := of.entries_tick_le journals s
    rw [st] at ticks first
    obtain ⟨of2, others⟩ := ih (ticks.of of)
    refine ⟨of2, others.trans ?_⟩
    have first : entries s1 ≤ entries s + program.entriesPerTick := first
    rw [Nat.succ_mul]
    omega

/-- The tick that fails counts as well. -/
theorem FailsAt.entries_le {n : Nat} {fault : Fault ε} (fails : FailsAt host m s n fault s')
    (of : m.Of program) (journals : host.Journals entries) :
    entries s' ≤ entries s + n * program.entriesPerTick := by
  obtain ⟨before, m1, s1, m2, rfl, run, -, st⟩ := fails
  obtain ⟨of1, others⟩ := run.entries_le of journals
  have last := of1.entries_tick_le journals s1
  rw [st] at last
  have last : entries s' ≤ entries s1 + program.entriesPerTick := last
  rw [Nat.succ_mul]
  omega

end Machine

end BlockPuzzle
