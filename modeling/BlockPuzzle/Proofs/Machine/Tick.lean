import BlockPuzzle.Proofs.Machine.Run

/-!
# What a tick can do

`Machine.Ticks` lists what a tick can report and what machine it can leave, whatever the host
answers: `Machine.ticks`. All that a machine keeps from tick to tick, also over ticks that fail
(`Machine.Ticked`), is read off that list.
-/

namespace BlockPuzzle

/-- A statement can open a frame for a body. -/
inductive Statement.Opens (procedures : List Procedure) :
    Statement → FrameKind → List Statement → Prop where
  | loop {times body} :
    times ≠ 0 →
    Opens procedures (.loop times body) (.loop times.toNat) body
  | whileHolds {condition body} :
    Opens procedures (.whileHolds condition body) (.whileHolds condition) body
  | forever {body} :
    Opens procedures (.forever body) .forever body
  | arm {arm arms otherwise} :
    arm ∈ arms →
    Opens procedures (.branch arms otherwise) .block arm.body
  | otherwise {arms body} :
    Opens procedures (.branch arms (some body)) .block body
  | call {index procedure} :
    procedures[index]? = some procedure →
    Opens procedures (.call index) .procedure procedure.body

/-- At the end of a pass a frame can start another one, as a frame of that kind. -/
inductive FrameKind.Repeats : FrameKind → FrameKind → Prop where
  | forever :
    Repeats .forever .forever
  | loop {remaining} :
    remaining - 1 ≠ 0 →
    Repeats (.loop remaining) (.loop (remaining - 1))
  | whileHolds {condition} :
    Repeats (.whileHolds condition) (.whileHolds condition)

namespace Machine

variable {σ ε : Type} {host : Host σ ε}

/-- The machine with its innermost frame behind its next statement. -/
def moved (m : Machine) (frame : Frame) (outer : List Frame) : Machine :=
  { m with frames := { frame with index := frame.index + 1 } :: outer }

/-- What a tick can report, and the machine that it can leave. -/
inductive Ticks (ε : Type) (m : Machine) : Except (Fault ε) Progress → Machine → Prop where
  | idle :
    m.completed = true →
    Ticks ε m (.ok .completed) m
  | complete :
    m.completed = false →
    m.frames = [] →
    Ticks ε m (.ok .completed) { m with completed := true }
  | passed {frame outer statement} :
    m.completed = false →
    m.frames = frame :: outer →
    frame.body[frame.index]? = some statement →
    Ticks ε m (.ok .running) (m.moved frame outer)
  | opened {frame outer statement kind body room} :
    m.completed = false →
    m.frames = frame :: outer →
    frame.body[frame.index]? = some statement →
    statement.Opens m.procedures kind body →
    m.room = room + 1 →
    Ticks ε m (.ok .running)
      { m with frames := ⟨kind, body, 0⟩ :: (m.moved frame outer).frames, room }
  | full {frame outer statement kind body} :
    m.completed = false →
    m.frames = frame :: outer →
    frame.body[frame.index]? = some statement →
    statement.Opens m.procedures kind body →
    m.room = 0 →
    Ticks ε m (.error (.tooDeep m.limit)) (m.moved frame outer)
  | unknown {frame outer index} :
    m.completed = false →
    m.frames = frame :: outer →
    frame.body[frame.index]? = some (.call index) →
    m.procedures[index]? = none →
    Ticks ε m (.error (.unknownProcedure index)) (m.moved frame outer)
  | refused {frame outer statement e} :
    m.completed = false →
    m.frames = frame :: outer →
    frame.body[frame.index]? = some statement →
    Ticks ε m (.error (.host e)) (m.moved frame outer)
  | again {frame outer kind} :
    m.completed = false →
    m.frames = frame :: outer →
    frame.body[frame.index]? = none →
    frame.kind.Repeats kind →
    Ticks ε m (.ok .running) { m with frames := { frame with kind, index := 0 } :: outer }
  | left {frame outer} :
    m.completed = false →
    m.frames = frame :: outer →
    frame.body[frame.index]? = none →
    Ticks ε m (.ok .running) { m with frames := outer, room := m.room + 1 }
  | unanswered {frame outer condition e} :
    m.completed = false →
    m.frames = frame :: outer →
    frame.body[frame.index]? = none →
    frame.kind = .whileHolds condition →
    Ticks ε m (.error (.host e)) m

/-- The arm that is chosen is one that the branch can open. -/
lemma opens_of_chooseArm {procedures : List Procedure} {arms : List Arm}
    {otherwise : Option (List Statement)} {body : List Statement} {s s' : σ}
    (chosen : chooseArm host otherwise arms s = .ok (some body) s') :
    (Statement.branch arms otherwise).Opens procedures .block body := by
  have from_arms : ∀ {others} {t : σ}, chooseArm host otherwise others t = .ok (some body) s' →
      otherwise = some body ∨ ∃ arm ∈ others, arm.body = body := by
    intro others t chosen
    induction others generalizing t with
    | nil =>
      cases chosen
      exact .inl rfl
    | cons arm others ih =>
      simp only [chooseArm, bind, EStateM.bind] at chosen
      cases asked : arm.condition.eval host t with
      | error e t' =>
        rw [asked] at chosen
        cases chosen
      | ok value t' =>
        rw [asked] at chosen
        cases value with
        | true =>
          cases chosen
          exact .inr ⟨arm, List.mem_cons_self, rfl⟩
        | false =>
          obtain last | ⟨arm, mem, is⟩ := ih chosen
          · exact .inl last
          · exact .inr ⟨arm, List.mem_cons_of_mem _ mem, is⟩
  obtain rfl | ⟨arm, mem, rfl⟩ := from_arms chosen
  · exact .otherwise
  · exact .arm mem

section

variable {m : Machine} {frame : Frame} {outer : List Frame} (work : m.completed = false)
  (frames : m.frames = frame :: outer)

include work frames

/-- A frame is opened, or there is no room for it. -/
lemma ticks_enter {statement kind body} (next : frame.body[frame.index]? = some statement)
    (opens : statement.Opens m.procedures kind body) (s : σ) :
    m.Ticks ε ((m.moved frame outer).enter kind body s : Tick σ ε).report
      ((m.moved frame outer).enter kind body s : Tick σ ε).machine := by
  have limit : (m.moved frame outer).limit = m.limit := by
    simp [Machine.limit, depth, moved, frames]
  cases room : m.room with
  | zero =>
    have entered : ((m.moved frame outer).enter kind body s : Tick σ ε) =
        (m.moved frame outer).failed (.tooDeep (m.moved frame outer).limit) s := by
      simp only [enter, moved, room]
    rw [entered, limit]
    exact .full work frames next opens room
  | succ room' =>
    have entered : ((m.moved frame outer).enter kind body s : Tick σ ε) =
        went { m with frames := ⟨kind, body, 0⟩ :: (m.moved frame outer).frames, room := room' } s := by
      simp only [enter, moved, room]
    rw [entered]
    exact .opened work frames next opens room

/-- What running a statement can do. -/
lemma ticks_run {statement} (next : frame.body[frame.index]? = some statement) (s : σ) :
    m.Ticks ε (run host (m.moved frame outer) statement s).report
      (run host (m.moved frame outer) statement s).machine := by
  cases statement with
  | command command block =>
    simp only [run]
    cases host.command command block s with
    | ok => exact .passed work frames next
    | error => exact .refused work frames next
  | loop times body =>
    simp only [run]
    by_cases zero : times = 0
    · rw [if_pos zero]
      exact .passed work frames next
    · rw [if_neg zero]
      exact ticks_enter work frames next (.loop zero) s
  | whileHolds condition body =>
    simp only [run]
    cases condition.eval host s with
    | ok value s =>
      cases value with
      | true => exact ticks_enter work frames next .whileHolds s
      | false => exact .passed work frames next
    | error => exact .refused work frames next
  | forever body => exact ticks_enter work frames next .forever s
  | branch arms otherwise =>
    simp only [run]
    cases chosen : chooseArm host otherwise arms s with
    | ok body s =>
      cases body with
      | some body => exact ticks_enter work frames next (opens_of_chooseArm chosen) s
      | none => exact .passed work frames next
    | error => exact .refused work frames next
  | call index =>
    simp only [run, moved]
    cases called : m.procedures[index]? with
    | some procedure => exact ticks_enter work frames next (.call called) s
    | none => exact .unknown work frames next called

/-- What the end of a pass can do. -/
lemma ticks_endPass (ends : frame.body[frame.index]? = none) (s : σ) :
    m.Ticks ε (endPass host m frame outer s).report (endPass host m frame outer s).machine := by
  obtain ⟨kind, body, index⟩ := frame
  cases kind with
  | block => exact .left work frames ends
  | procedure => exact .left work frames ends
  | forever => exact .again work frames ends .forever
  | loop remaining =>
    simp only [endPass]
    by_cases last : remaining - 1 = 0
    · rw [if_pos last]
      exact .left work frames ends
    · rw [if_neg last]
      exact .again work frames ends (.loop last)
  | whileHolds condition =>
    simp only [endPass]
    cases condition.eval host s with
    | ok value s =>
      cases value with
      | true => exact .again work frames ends .whileHolds
      | false => exact .left work frames ends
    | error => exact .unanswered work frames ends rfl

end

/-- Every tick does one of the things that a tick can do. -/
theorem ticks (host : Host σ ε) (m : Machine) (s : σ) :
    m.Ticks ε (m.tick host s).report (m.tick host s).machine := by
  obtain ⟨procedures, room, frames, completed⟩ := m
  cases completed with
  | true => exact .idle rfl
  | false =>
    cases frames with
    | nil => exact .complete rfl rfl
    | cons frame outer =>
      unfold tick
      rw [if_neg Bool.false_ne_true]
      simp only
      cases next : frame.body[frame.index]? with
      | some statement => exact ticks_run rfl rfl next s
      | none => exact ticks_endPass rfl rfl next s

/-! ## What ticks keep -/

variable {m m' : Machine} {report : Except (Fault ε) Progress}

/-- No tick changes the procedures. -/
lemma Ticks.procedures (ticks : m.Ticks ε report m') : m'.procedures = m.procedures := by
  cases ticks <;> rfl

/-- The limit stays: what a frame takes of the room, it gives back. -/
lemma Ticks.limit (ticks : m.Ticks ε report m') : m'.limit = m.limit := by
  unfold Machine.limit depth
  cases ticks with
  | idle => rfl
  | complete => rfl
  | passed _ frames => simp [moved, frames]
  | opened _ frames _ _ room =>
    simp only [moved, frames, room, List.length_cons]
    omega
  | full _ frames => simp [moved, frames]
  | unknown _ frames => simp [moved, frames]
  | refused _ frames => simp [moved, frames]
  | again _ frames => simp [frames]
  | left _ frames =>
    simp only [frames, List.length_cons]
    omega
  | unanswered => rfl

/-- A tick with work to do that does not fail does not report completion. -/
lemma Ticks.running {progress : Progress} (ticks : m.Ticks ε (.ok progress) m')
    (work : m.hasWork = true) : progress = .running := by
  unfold hasWork at work
  cases ticks with
  | idle completed => simp [completed] at work
  | complete _ frames => simp [frames] at work
  | _ => rfl

/-- Any number of ticks lead from one state to another, whatever they report. -/
inductive Ticked (host : Host σ ε) (m : Machine) (s : σ) : Machine → σ → Prop where
  | rest :
    Ticked host m s m s
  | tick {m' s'} :
    Ticked host m s m' s' →
    Ticked host m s (m'.tick host s').machine (m'.tick host s').host

/-- What every tick keeps holds after any number of ticks. -/
lemma Ticked.keeps {P : Machine → Prop}
    (step : ∀ {m m' : Machine} {report : Except (Fault ε) Progress}, m.Ticks ε report m' → P m → P m')
    {s s' : σ} (ticked : Ticked host m s m' s') (start : P m) : P m' := by
  induction ticked with
  | rest => exact start
  | @tick m' s' _ ih => exact step (ticks host m' s') ih

/-- A machine that runs is ticked. -/
lemma Runs.ticked {n : Nat} {m1 m2 : Machine} {s s1 s2 : σ} (run : Runs host n m1 s1 m2 s2)
    (before : Ticked host m s m1 s1) : Ticked host m s m2 s2 := by
  induction run with
  | rest => exact before
  | tick work st _ ih =>
    have next := before.tick
    rw [st] at next
    exact ih next

/-- The tick that fails comes after ticks that did not. -/
lemma FailsAt.ticked {n : Nat} {fault : Fault ε} {s s' : σ} (fails : FailsAt host m s n fault s') :
    ∃ m1 s1, Ticked host m s m1 s1 ∧ (m1.tick host s1).report = .error fault := by
  obtain ⟨before, m1, s1, m2, -, run, -, st⟩ := fails
  exact ⟨m1, s1, run.ticked .rest, by rw [st]; rfl⟩

/-- At least one frame may be open, the one of the program itself. -/
lemma limit_load (program : Program) (limit : Nat) : (load program limit).limit = max 1 limit := by
  simp only [Machine.limit, depth, load, List.length_singleton]
  omega

/-- However many ticks a machine makes, it may have as many frames open as was asked for, but one at
least. -/
lemma Ticked.limit_eq {program : Program} {limit : Nat}
    (ticked : Ticked host (load program limit) s m s') : m.limit = max 1 limit := by
  have same : m.limit = (load program limit).limit :=
    ticked.keeps (fun ticks same => ticks.limit.trans same) rfl
  rw [same, limit_load]

/-- The depth that is exceeded is the one that was asked for, but at least one frame. -/
lemma FailsAt.tooDeep {program : Program} {limit n depth : Nat} {s s' : σ}
    (fails : FailsAt host (load program limit) s n (.tooDeep depth) s') : depth = max 1 limit := by
  obtain ⟨m, t, ticked, reports⟩ := fails.ticked
  have ticks := Machine.ticks host m t
  rw [reports] at ticks
  generalize (m.tick host t).machine = left at ticks
  cases ticks with
  | full => exact ticked.limit_eq

end Machine

end BlockPuzzle
