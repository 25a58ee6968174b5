import BlockPuzzle.Machine.Rehearsal
import BlockPuzzle.Proofs.Machine.Tick

/-!
# Going on behind failures

A machine can be ticked on when a tick has failed. Its frames stay in order (`Machine.InOrder`)
whatever has failed before, and never more of them are open than were asked for. What a failed tick
leaves depends on where it fails (`Machine.Stumbles`): the check at the end of a pass changes nothing
and is made again, but a statement that fails is left behind. `Machine.ticked_inOrder` says all this of
any number of ticks.
-/

namespace BlockPuzzle

/-- A frame does not go past its last statement, and that of a counted loop has a pass left. -/
structure Frame.InOrder (frame : Frame) : Prop where
  index : frame.index ≤ frame.body.length
  remaining : ∀ n, frame.kind = .loop n → 1 ≤ n ∧ n < 4294967296

/-- All frames of a machine are in order, and there is none when it has completed. -/
structure Machine.InOrder (m : Machine) : Prop where
  frames : ∀ frame ∈ m.frames, frame.InOrder
  completed : m.completed = true → m.frames = []

/-! ## Frames -/

namespace Frame.InOrder

variable {frame : Frame} {statement : Statement}

/-- A frame that goes past a statement stays in order. -/
lemma next (order : frame.InOrder) (here : frame.body[frame.index]? = some statement) :
    Frame.InOrder { frame with index := frame.index + 1 } :=
  ⟨(List.getElem?_eq_some_iff.1 here).1, order.remaining⟩

/-- A frame that a statement opens is in order. -/
lemma opened {procedures : List Procedure} {kind : FrameKind} {body : List Statement}
    (opens : statement.Opens procedures kind body) : Frame.InOrder ⟨kind, body, 0⟩ := by
  refine ⟨Nat.zero_le _, ?_⟩
  intro n counted
  cases opens with
  | @loop times _ nonzero =>
    cases counted
    have positive : times.toNat ≠ 0 := fun zero => nonzero (UInt32.toNat_inj.1 zero)
    exact ⟨Nat.pos_of_ne_zero positive, times.toNat_lt⟩
  | _ => cases counted

/-- A frame that starts another pass is in order. -/
lemma again {kind : FrameKind} (order : frame.InOrder) (repeats : frame.kind.Repeats kind) :
    Frame.InOrder { frame with kind, index := 0 } := by
  refine ⟨Nat.zero_le _, ?_⟩
  intro n counted
  obtain ⟨kind', body, index⟩ := frame
  cases repeats with
  | @loop remaining left =>
    cases counted
    have few := (order.remaining remaining rfl).2
    omega
  | _ => cases counted

end Frame.InOrder

namespace Machine

variable {σ ε : Type} {host : Host σ ε} {program : Program} {limit : Nat} {m m' : Machine} {s s' : σ}
  {frame : Frame} {outer : List Frame} {report : Except (Fault ε) Progress}

/-! ## Ticks -/

/-- As long as a machine has not completed, only its frames have to be in order. -/
lemma inOrder_of_work (work : m.completed = false) (frames : ∀ frame ∈ m.frames, frame.InOrder) :
    m.InOrder := by
  refine ⟨frames, ?_⟩
  intro completed
  cases work.symm.trans completed

/-- So does a machine whose innermost frame does. -/
lemma InOrder.moved {statement : Statement} (order : m.InOrder) (work : m.completed = false)
    (frames : m.frames = frame :: outer) (next : frame.body[frame.index]? = some statement) :
    (m.moved frame outer).InOrder := by
  obtain ⟨here, others⟩ := List.forall_mem_cons.1 (frames ▸ order.frames)
  exact inOrder_of_work work (List.forall_mem_cons.2 ⟨here.next next, others⟩)

/-- Every tick keeps a machine in order, also one that fails. -/
lemma Ticks.inOrder (ticks : m.Ticks ε report m') (order : m.InOrder) : m'.InOrder := by
  cases ticks with
  | idle => exact order
  | complete _ empty => exact ⟨order.frames, fun _ => empty⟩
  | passed work frames next => exact order.moved work frames next
  | opened work frames next opens =>
    have moved := order.moved work frames next
    exact inOrder_of_work work (List.forall_mem_cons.2 ⟨.opened opens, moved.frames⟩)
  | full work frames next => exact order.moved work frames next
  | unknown work frames next => exact order.moved work frames next
  | refused work frames next => exact order.moved work frames next
  | again work frames _ repeats =>
    obtain ⟨here, others⟩ := List.forall_mem_cons.1 (frames ▸ order.frames)
    exact inOrder_of_work work (List.forall_mem_cons.2 ⟨here.again repeats, others⟩)
  | left work frames =>
    obtain ⟨-, others⟩ := List.forall_mem_cons.1 (frames ▸ order.frames)
    exact inOrder_of_work work others
  | unanswered => exact order

/-- A tick opens or closes one frame at most. -/
lemma Ticks.depth (ticks : m.Ticks ε report m') :
    m'.depth ≤ m.depth + 1 ∧ m.depth ≤ m'.depth + 1 := by
  unfold Machine.depth
  cases ticks with
  | idle => omega
  | complete => simp
  | unanswered => omega
  | passed _ frames => simp [moved, frames]
  | opened _ frames =>
    simp only [moved, frames, List.length_cons]
    omega
  | full _ frames => simp [moved, frames]
  | unknown _ frames => simp [moved, frames]
  | refused _ frames => simp [moved, frames]
  | again _ frames => simp [frames]
  | left _ frames =>
    simp only [frames, List.length_cons]
    omega

/-- Completion is noted when no frame is open. -/
lemma Ticks.completes (ticks : m.Ticks ε report m') (completed : m'.completed = true) :
    m.completed = true ∨ m.frames = [] := by
  cases ticks with
  | complete _ empty => exact .inr empty
  | _ => exact .inl completed

/-! ## Failures -/

/-- A tick does what the innermost frame is at: a statement, or the end of a pass. -/
lemma tick_of_frames (work : m.completed = false) (frames : m.frames = frame :: outer)
    (host : Host σ ε) (s : σ) : m.tick host s =
      match frame.body[frame.index]? with
      | some statement => run host (m.moved frame outer) statement s
      | none => m.endPass host frame outer s := by
  unfold tick
  rw [if_neg (ne_true_of_eq_false work), frames]
  rfl

/-- The check at the end of a pass fails only if the host fails to answer. -/
lemma endPass_whileHolds {condition : Condition} {fault : Fault ε}
    (kind : frame.kind = .whileHolds condition)
    (fails : (m.endPass host frame outer s).report = .error fault) :
    ∃ e s', condition.eval host s = .error e s' ∧
      m.endPass host frame outer s = m.failed (.host e) s' := by
  unfold endPass at fails ⊢
  simp only [kind] at fails ⊢
  cases asked : condition.eval host s with
  | ok value s' =>
    rw [asked] at fails
    cases value with
    | true => cases fails
    | false => cases fails
  | error e s' => exact ⟨e, s', rfl, rfl⟩

/-- How a machine is left by a tick that fails. At the end of a pass the host fails to answer whether
there is to be another one. Nothing has changed then, so the next tick asks again. When a statement fails
the machine is behind it, so the next tick goes on with what comes next. -/
inductive Stumbles (host : Host σ ε) (m : Machine) (s : σ) : Tick σ ε → Prop where
  | check {frame outer condition e s'} :
    m.frames = frame :: outer →
    frame.index = frame.body.length →
    frame.kind = .whileHolds condition →
    condition.eval host s = .error e s' →
    (∀ t, m.tick host t = m.endPass host frame outer t) →
    Stumbles host m s (m.failed (.host e) s')
  | statement {frame behind outer statement fault s'} :
    m.frames = frame :: outer →
    frame.body[frame.index]? = some statement →
    run host (m.moved frame outer) statement s = (m.moved frame outer).failed fault s' →
    behind = { frame with index := frame.index + 1 } →
    (∀ t, (m.moved frame outer).tick host t =
      match frame.body[frame.index + 1]? with
      | some next => run host (m.moved behind outer) next t
      | none => (m.moved frame outer).endPass host behind outer t) →
    Stumbles host m s ((m.moved frame outer).failed fault s')

/-- A tick that fails at a statement leaves the machine behind it. -/
lemma stumbles_statement {statement : Statement} {fault : Fault ε} (work : m.completed = false)
    (frames : m.frames = frame :: outer) (next : frame.body[frame.index]? = some statement)
    (fails : m.tick host s = (m.moved frame outer).failed fault s') :
    Stumbles host m s ((m.moved frame outer).failed fault s') := by
  have here := tick_of_frames work frames host s
  rw [next, fails] at here
  have goes_on := @tick_of_frames _ _ (m.moved frame outer) { frame with index := frame.index + 1 }
    outer work rfl host
  exact .statement frames next here.symm rfl goes_on

/-- Every tick that fails leaves the machine in one of the two ways. -/
lemma stumbles_of_error (order : m.InOrder) {fault : Fault ε}
    (fails : (m.tick host s).report = .error fault) : Stumbles host m s (m.tick host s) := by
  have ticks := Machine.ticks host m s
  cases tick : m.tick host s with
  | mk report m' s' =>
    rw [tick] at ticks fails
    obtain rfl : report = .error fault := fails
    cases ticks with
    | full work frames next => exact stumbles_statement work frames next tick
    | unknown work frames next => exact stumbles_statement work frames next tick
    | refused work frames next => exact stumbles_statement work frames next tick
    | @unanswered frame outer condition e work frames ends kind =>
      -- the machine that is left is the one that was ticked
      have again : ∀ t, m'.tick host t = m'.endPass host frame outer t := by
        intro t
        rw [tick_of_frames work frames, ends]
      have here := again s
      rw [tick] at here
      obtain ⟨e', t, asked, fails⟩ := endPass_whileHolds kind (congrArg Tick.report here).symm
      have within := (order.frames frame (frames ▸ List.mem_cons_self)).index
      have last := Nat.le_antisymm within (List.getElem?_eq_none_iff.1 ends)
      rw [here, fails]
      exact .check frames last kind asked again

/-- A tick that fails leaves all but the innermost frame as it was. -/
lemma Stumbles.spares {after : Tick σ ε} (stumbles : Stumbles host m s after) :
    after.machine.depth = m.depth ∧ after.machine.frames.tail = m.frames.tail ∧
      after.machine.completed = m.completed := by
  unfold Machine.depth
  cases stumbles with
  | check => exact ⟨rfl, rfl, rfl⟩
  | statement frames =>
    rw [frames]
    exact ⟨rfl, rfl, rfl⟩

/-! ## Any number of ticks -/

/-- A loaded machine is in order. -/
lemma load_inOrder (program : Program) (limit : Nat) : (load program limit).InOrder := by
  refine ⟨List.forall_mem_singleton.2 ⟨Nat.zero_le _, ?_⟩, ?_⟩
  · intro n counted
    cases counted
  · intro completed
    cases completed

/-- However many ticks a machine has made, and whichever of them have failed, its frames are in order and
not more than were asked for. The next tick opens or closes one frame at most, and notes completion only
when there is none; from then on a tick does nothing, whatever the host. A tick that fails leaves the
outer frames alone, and the innermost one as well if it is at the end of a pass; else it has gone past the
statement that failed. -/
theorem ticked_inOrder (program : Program) (limit : Nat) (host : Host σ ε) (s : σ)
    (ticked : Ticked host (load program limit) s m s') :
    (m.InOrder ∧ m.depth ≤ max 1 limit) ∧
      ((m.tick host s').machine.depth ≤ m.depth + 1 ∧
        m.depth ≤ (m.tick host s').machine.depth + 1) ∧
      ((m.tick host s').machine.completed = true → m.frames = []) ∧
      (m.completed = true → ∀ {τ δ : Type} (other : Host τ δ) (t : τ),
        m.tick other t = ⟨.ok .completed, m, t⟩) ∧
      ∀ fault, (m.tick host s').report = .error fault →
        Stumbles host m s' (m.tick host s') ∧
          (m.tick host s').machine.depth = m.depth ∧
          (m.tick host s').machine.frames.tail = m.frames.tail ∧
          (m.tick host s').machine.completed = m.completed := by
  have order : m.InOrder := ticked.keeps Ticks.inOrder (load_inOrder program limit)
  have ticks := Machine.ticks host m s'
  refine ⟨⟨order, ?_⟩, ticks.depth, ?_, ?_, ?_⟩
  · rw [← ticked.limit_eq]
    exact Nat.le_add_left _ _
  · intro completed
    exact (ticks.completes completed).elim order.completed id
  · intro completed τ δ other t
    unfold tick
    exact if_pos completed
  · intro fault fails
    have stumbles := stumbles_of_error order fails
    exact ⟨stumbles, stumbles.spares⟩

/-- A host that answers once and then fails: the loop is entered and its statement carried out, but the
check behind it fails and is still ahead. -/
theorem ticked_inOrder_retry :
    ∃ (host : Host Rehearsal.Notes Rehearsal.Refusal) (m : Machine) (s s' : Rehearsal.Notes),
      Ticked host (load ⟨"p", [.whileHolds (.path .ahead "a") [.command .finish "b"]], []⟩ 2) s m s' ∧
        (m.tick host s').report = .error (.host (.senseFailed "a")) ∧
        (m.tick host s').machine = m ∧ m.depth = 2 := by
  let rehearsal : Rehearsal := ⟨[], true, none, none, some 2, none⟩
  let loop : Statement := .whileHolds (.path .ahead "a") [.command .finish "b"]
  let m : Machine := ⟨[], 0, [⟨.whileHolds (.path .ahead "a"), [.command .finish "b"], 1⟩,
    ⟨.block, [loop], 1⟩], false⟩
  let s' : Rehearsal.Notes := ⟨[(.finish, "b")], [(.ahead, "a")], 0, []⟩
  have ticked : Ticked rehearsal.host (load ⟨"p", [loop], []⟩ 2) rehearsal.notes m s' :=
    Ticked.rest.tick.tick
  obtain ⟨-, -, -, -, fails⟩ := ticked_inOrder _ _ _ _ ticked
  obtain ⟨stumbles, -⟩ := fails (.host (.senseFailed "a")) rfl
  refine ⟨rehearsal.host, m, rehearsal.notes, s', ticked, rfl, ?_, rfl⟩
  generalize m.tick rehearsal.host s' = after at stumbles ⊢
  cases stumbles with
  | check => rfl
  | statement frames next =>
    cases frames
    cases next

end Machine

end BlockPuzzle
