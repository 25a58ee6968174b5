import Mathlib.Algebra.GroupWithZero.Nat
import BlockPuzzle.Proofs.Machine.Frames
import BlockPuzzle.Proofs.Program.Extent

/-!
# Machines that are bound to end

What a machine has left to do is read off its frames: the rest of each body, and the passes that a
loop has still before it. If the program is bounded, every tick takes some of it away
(`Machine.Ticks.lt`), and the bodies nest no deeper than those of the program
(`Machine.Ticked.fit`). So such a machine ends by itself in as many ticks as the program extends to,
unless its host lets it down: `Machine.load_ends`.
-/

namespace BlockPuzzle

/-! ## What is opened -/

/-- The passes through a body that a frame of a kind comes to, as far as it counts them. -/
def FrameKind.passes : FrameKind → Nat
  | block => 1
  | procedure => 1
  | loop remaining => remaining
  | whileHolds _ => 1
  | forever => 1

/-- Whether a frame of a kind counts its passes, or makes only one. -/
def FrameKind.counted : FrameKind → Bool
  | block => true
  | procedure => true
  | loop _ => true
  | whileHolds _ => false
  | forever => false

section

variable {gauge : Gauge} {called : Nat → Nat}

/-- The arms of a branch extend as far as the body of each, and one further for its frame. -/
lemma armsExtent_ge {arm : Arm} {arms : List Arm} (mem : arm ∈ arms) :
    bodyExtent gauge called arm.body + 1 ≤ armsExtent gauge called arms := by
  induction arms with
  | nil => cases mem
  | cons first arms ih =>
    rw [armsExtent]
    obtain rfl | mem := List.mem_cons.1 mem
    · cases arm
      exact Nat.le_max_left _ _
    · exact (ih mem).trans (Nat.le_max_right _ _)

/-- A statement extends as far as itself and all passes through a body that it opens. -/
lemma Statement.Opens.extent_le {procedures : List Procedure} {statement : Statement}
    {kind : FrameKind} {body : List Statement} (gauge : Gauge)
    (single : ∀ n, gauge.passes 1 n = n)
    (recursion : ∀ {index procedure}, procedures[index]? = some procedure →
      called index = bodyExtent gauge called procedure.body)
    (opens : statement.Opens procedures kind body) :
    gauge.statement + gauge.passes kind.passes (bodyExtent gauge called body + 1) ≤
      statement.extent gauge called := by
  cases opens with
  | loop => exact Nat.le_refl _
  | whileHolds =>
    simp only [FrameKind.passes, single]
    exact Nat.le_refl _
  | forever =>
    simp only [FrameKind.passes, single]
    exact Nat.le_refl _
  | arm mem =>
    simp only [FrameKind.passes, single]
    exact Nat.add_le_add_left ((armsExtent_ge mem).trans (Nat.le_max_left _ _)) _
  | otherwise =>
    simp only [FrameKind.passes, single]
    exact Nat.add_le_add_left (Nat.le_max_right _ _) _
  | call at_index =>
    simp only [FrameKind.passes, single, Statement.extent, recursion at_index]
    exact Nat.le_refl _

end

/-- All statements of a counted body are counted. -/
lemma counted_of_mem {statement : Statement} {body : List Statement}
    (counted : bodyCounted body = true) (mem : statement ∈ body) : statement.counted = true := by
  induction body with
  | nil => cases mem
  | cons first body ih =>
    rw [bodyCounted, Bool.and_eq_true] at counted
    obtain rfl | mem := List.mem_cons.1 mem
    · exact counted.1
    · exact ih counted.2 mem

/-- All arms of a counted branch have counted bodies. -/
lemma bodyCounted_of_mem {arm : Arm} {arms : List Arm} (counted : armsCounted arms = true)
    (mem : arm ∈ arms) : bodyCounted arm.body = true := by
  induction arms with
  | nil => cases mem
  | cons first arms ih =>
    rw [armsCounted, Bool.and_eq_true] at counted
    obtain rfl | mem := List.mem_cons.1 mem
    · cases arm
      exact counted.1
    · exact ih counted.2 mem

namespace Program

variable {program : Program} {kind : FrameKind} {body : List Statement} {statement : Statement}

/-- A counted statement of a bounded program opens counted frames for counted bodies. -/
lemma Bounded.opens (bounded : program.Bounded) (counted : statement.counted = true)
    (opens : statement.Opens program.procedures kind body) :
    kind.counted = true ∧ bodyCounted body = true := by
  cases opens with
  | loop => exact ⟨rfl, counted⟩
  | whileHolds => cases counted
  | forever => cases counted
  | arm mem =>
    rw [Statement.counted, Bool.and_eq_true] at counted
    exact ⟨rfl, bodyCounted_of_mem counted.1 mem⟩
  | otherwise =>
    rw [Statement.counted, Bool.and_eq_true] at counted
    exact ⟨rfl, counted.2⟩
  | call at_index => exact ⟨rfl, bounded.procedures _ (List.mem_of_getElem? at_index)⟩

/-- All frames of a bounded program are counted, and so are their bodies. -/
lemma Bounded.unfolds (bounded : program.Bounded) (unfolds : program.Unfolds kind body) :
    kind.counted = true ∧ bodyCounted body = true := by
  induction unfolds with
  | main => exact ⟨rfl, bounded.main⟩
  | opened _ mem opens ih => exact bounded.opens (counted_of_mem ih.2 mem) opens
  | repeated _ repeats ih =>
    cases repeats with
    | forever => exact ih
    | loop => exact ⟨rfl, ih.2⟩
    | whileHolds => exact ih

/-- The extents of procedures in a bounded program are those of their bodies. -/
lemma Bounded.recursion (bounded : program.Bounded) (gauge : Gauge) {index : Nat}
    {procedure : Procedure} (at_index : program.procedures[index]? = some procedure) :
    program.procedureExtent gauge index =
      bodyExtent gauge (program.procedureExtent gauge) procedure.body :=
  procedureExtent_eq bounded.acyclic at_index

end Program

/-! ## Ticks left -/

/-- The ticks that a frame is left for at most: those for the rest of its body and the end of this
pass, and those for the other passes. -/
def Frame.ticksLeft (called : Nat → Nat) (frame : Frame) : Nat :=
  bodyExtent .ticks called (frame.body.drop frame.index) + 1 +
    (frame.kind.passes - 1) * (bodyExtent .ticks called frame.body + 1)

/-- The ticks that the frames of a machine are left for at most. -/
def Machine.ticksLeft (called : Nat → Nat) (m : Machine) : Nat :=
  (m.frames.map (Frame.ticksLeft called)).sum

section

variable (called : Nat → Nat)

/-- A statement takes at least one tick. -/
lemma Statement.one_le_ticks (statement : Statement) : 1 ≤ statement.extent .ticks called := by
  cases statement with
  | command => exact Nat.le_refl 1
  | _ => exact Nat.le_add_right 1 _

/-- Of a frame that goes behind its next statement, this statement is left. -/
lemma Frame.ticksLeft_next {frame : Frame} {statement : Statement}
    (next : frame.body[frame.index]? = some statement) :
    frame.ticksLeft called = statement.extent .ticks called +
      Frame.ticksLeft called { frame with index := frame.index + 1 } := by
  obtain ⟨within, rfl⟩ := List.getElem?_eq_some_iff.1 next
  simp only [ticksLeft, List.drop_eq_getElem_cons within, bodyExtent, Gauge.ticks]
  omega

/-- A frame that is opened is left for all its passes. -/
lemma Frame.ticksLeft_open {kind : FrameKind} (body : List Statement) (passes : kind.passes ≠ 0) :
    Frame.ticksLeft called ⟨kind, body, 0⟩ =
      kind.passes * (bodyExtent .ticks called body + 1) := by
  obtain ⟨others, count⟩ := Nat.exists_eq_succ_of_ne_zero passes
  simp only [ticksLeft, List.drop_zero, count, Nat.succ_sub_one, Nat.succ_mul]
  omega

/-- So does a frame, if only to be left. -/
lemma Frame.one_le_ticksLeft (frame : Frame) : 1 ≤ frame.ticksLeft called := by
  unfold ticksLeft
  omega

/-- A counted frame that starts another pass is left for one less. -/
lemma Frame.ticksLeft_again {frame : Frame} {kind : FrameKind} (counted : frame.kind.counted = true)
    (repeats : frame.kind.Repeats kind) :
    Frame.ticksLeft called { frame with kind, index := 0 } < frame.ticksLeft called := by
  obtain ⟨kind', body, index⟩ := frame
  cases repeats with
  | forever => cases counted
  | whileHolds => cases counted
  | @loop remaining more =>
    have renewed : Frame.ticksLeft called ⟨.loop (remaining - 1), body, 0⟩ =
        (remaining - 1) * (bodyExtent .ticks called body + 1) :=
      ticksLeft_open called body more
    rw [renewed]
    simp only [ticksLeft, FrameKind.passes]
    omega

end

/-- A frame that is opened has a pass to make. -/
lemma Statement.Opens.passes {procedures : List Procedure} {statement : Statement}
    {kind : FrameKind} {body : List Statement} (opens : statement.Opens procedures kind body) :
    kind.passes ≠ 0 := by
  cases opens with
  | loop times => exact fun none => times (UInt32.toNat_inj.1 none)
  | _ => exact Nat.one_ne_zero

namespace Machine

variable {σ ε : Type} {host : Host σ ε} {program : Program} {m m' : Machine} {s s' : σ}
  {report : Except (Fault ε) Progress}

/-- The ticks that are left are those of the innermost frame and those of the others. -/
lemma ticksLeft_cons {called : Nat → Nat} {frame : Frame} {outer : List Frame}
    (frames : m.frames = frame :: outer) :
    m.ticksLeft called = frame.ticksLeft called + (outer.map (Frame.ticksLeft called)).sum := by
  rw [ticksLeft, frames, List.map_cons, List.sum_cons]

/-- What is behind the machine is a tick or more. -/
lemma ticksLeft_moved {called : Nat → Nat} {frame : Frame} {outer : List Frame}
    {statement : Statement} (frames : m.frames = frame :: outer)
    (next : frame.body[frame.index]? = some statement) :
    m.ticksLeft called =
      statement.extent .ticks called + (m.moved frame outer).ticksLeft called := by
  have behind : (m.moved frame outer).frames = { frame with index := frame.index + 1 } :: outer :=
    rfl
  rw [ticksLeft_cons frames, ticksLeft_cons behind, Frame.ticksLeft_next called next, Nat.add_assoc]

/-- Every tick with work to do takes away from what is left, also one that fails. -/
theorem Ticks.lt (bounded : program.Bounded) (of : m.Of program) (work : m.hasWork = true)
    (ticks : m.Ticks ε report m') :
    m'.ticksLeft (program.procedureExtent .ticks) <
      m.ticksLeft (program.procedureExtent .ticks) := by
  have moved : ∀ {frame outer statement}, m.frames = frame :: outer →
      frame.body[frame.index]? = some statement →
      (m.moved frame outer).ticksLeft (program.procedureExtent .ticks) <
        m.ticksLeft (program.procedureExtent .ticks) := by
    intro frame outer statement frames next
    have one := statement.one_le_ticks (program.procedureExtent .ticks)
    rw [ticksLeft_moved frames next]
    omega
  have here : ∀ {frame outer}, m.frames = frame :: outer → frame.kind.counted = true :=
    fun frames => (bounded.unfolds (of.frames _ (frames ▸ List.mem_cons_self))).1
  unfold hasWork at work
  cases ticks with
  | idle completed => simp [completed] at work
  | complete _ frames => simp [frames] at work
  | passed _ frames next => exact moved frames next
  | full _ frames next => exact moved frames next
  | unknown _ frames next => exact moved frames next
  | refused _ frames next => exact moved frames next
  | @opened frame outer statement kind body room _ frames next opens =>
    rw [of.procedures] at opens
    have covers := opens.extent_le .ticks Nat.one_mul (bounded.recursion .ticks)
    have inner := Frame.ticksLeft_open (program.procedureExtent .ticks) body opens.passes
    have entered : ({ m with frames := ⟨kind, body, 0⟩ :: (m.moved frame outer).frames, room } :
        Machine).ticksLeft (program.procedureExtent .ticks) =
          Frame.ticksLeft (program.procedureExtent .ticks) ⟨kind, body, 0⟩ +
            (m.moved frame outer).ticksLeft (program.procedureExtent .ticks) :=
      ticksLeft_cons rfl
    rw [entered, ticksLeft_moved frames next, inner]
    simp only [Gauge.ticks] at covers ⊢
    omega
  | again _ frames _ repeats =>
    have fewer := Frame.ticksLeft_again (program.procedureExtent .ticks) (here frames) repeats
    rw [ticksLeft_cons frames, ticksLeft_cons rfl]
    exact Nat.add_lt_add_right fewer _
  | @left frame outer _ frames =>
    have one := frame.one_le_ticksLeft (program.procedureExtent .ticks)
    rw [ticksLeft_cons frames]
    simp only [ticksLeft]
    omega
  | unanswered _ frames _ asks =>
    have counts := here frames
    rw [asks] at counts
    cases counts

/-- At the start all ticks of the program are left. -/
lemma ticksLeft_load (program : Program) (limit : Nat) :
    (load program limit).ticksLeft (program.procedureExtent .ticks) = program.extent .ticks := by
  have main : Frame.ticksLeft (program.procedureExtent .ticks) ⟨.block, program.main, 0⟩ =
      1 * program.extent .ticks :=
    Frame.ticksLeft_open _ program.main Nat.one_ne_zero
  rw [ticksLeft_cons rfl, main, Nat.one_mul]
  rfl

/-! ## Room left -/

/-- Frames have room for all that their bodies open: those outside may also take what those inside
leave. -/
def Fit (nested : Nat → Nat) : Nat → List Frame → Prop
  | _, [] => True
  | room, frame :: outer =>
    bodyExtent .levels nested frame.body ≤ room ∧ Fit nested (room + 1) outer

end Machine

/-- A body nests as deep as each of its statements. -/
lemma levels_le_of_mem (nested : Nat → Nat) {statement : Statement} {body : List Statement}
    (mem : statement ∈ body) :
    statement.extent .levels nested ≤ bodyExtent .levels nested body := by
  induction body with
  | nil => cases mem
  | cons first body ih =>
    rw [bodyExtent]
    obtain rfl | mem := List.mem_cons.1 mem
    · exact Nat.le_max_left _ _
    · exact (ih mem).trans (Nat.le_max_right _ _)

namespace Machine

variable {σ ε : Type} {host : Host σ ε} {program : Program} {m m' : Machine} {s s' : σ}
  {report : Except (Fault ε) Progress} {limit : Nat}

section

variable {frame : Frame} {outer : List Frame} {statement : Statement} {kind : FrameKind}
  {body : List Statement}

/-- A body that a frame opens takes a level more than all that it opens itself. -/
lemma levels_lt (bounded : program.Bounded) (next : frame.body[frame.index]? = some statement)
    (opens : statement.Opens program.procedures kind body) :
    bodyExtent .levels (program.procedureExtent .levels) body <
      bodyExtent .levels (program.procedureExtent .levels) frame.body := by
  have covers := opens.extent_le .levels (fun _ => rfl) (bounded.recursion .levels)
  have within := levels_le_of_mem (program.procedureExtent .levels) (List.mem_of_getElem? next)
  simp only [Gauge.levels] at covers within ⊢
  omega

end

/-- Frames that have room for all that they open keep it. -/
lemma Ticks.fit (bounded : program.Bounded) (of : m.Of program) (ticks : m.Ticks ε report m')
    (fit : Fit (program.procedureExtent .levels) m.room m.frames) :
    Fit (program.procedureExtent .levels) m'.room m'.frames := by
  cases ticks with
  | idle => exact fit
  | complete => exact fit
  | passed _ frames =>
    rw [frames] at fit
    exact fit
  | opened _ frames next opens more =>
    rw [of.procedures] at opens
    rw [frames, more] at fit
    have inner := levels_lt bounded next opens
    exact ⟨Nat.le_of_lt_succ (inner.trans_le fit.1), fit⟩
  | full _ frames =>
    rw [frames] at fit
    exact fit
  | unknown _ frames =>
    rw [frames] at fit
    exact fit
  | refused _ frames =>
    rw [frames] at fit
    exact fit
  | again _ frames =>
    rw [frames] at fit
    exact fit
  | left _ frames =>
    rw [frames] at fit
    exact fit.2
  | unanswered => exact fit

/-- However many ticks a machine makes, its frames have room for all that they open. -/
lemma Ticked.fit (bounded : program.Bounded) (enough : program.extent .levels ≤ limit)
    (ticked : Ticked host (load program limit) s m s') :
    Fit (program.procedureExtent .levels) m.room m.frames := by
  have keeps := ticked.keeps
    (P := fun m => m.Of program ∧ Fit (program.procedureExtent .levels) m.room m.frames)
    (fun ticks kept => ⟨ticks.of kept.1, ticks.fit bounded kept.1 kept.2⟩)
    ⟨load_of program limit, Nat.le_sub_one_of_lt enough, trivial⟩
  exact keeps.2

/-- A bounded program never opens too many frames if it may open as many as its bodies nest. -/
theorem Ticked.not_tooDeep (bounded : program.Bounded) (enough : program.extent .levels ≤ limit)
    (ticked : Ticked host (load program limit) s m s') (depth : Nat) :
    (m.tick host s').report ≠ .error (.tooDeep depth) := by
  intro reports
  have ticks := Machine.ticks host m s'
  rw [reports] at ticks
  have fit := ticked.fit bounded enough
  have of := ticked.of
  generalize (m.tick host s').machine = left at ticks
  cases ticks with
  | full _ frames next opens none =>
    rw [of.procedures] at opens
    rw [frames, none] at fit
    exact absurd ((levels_lt bounded next opens).trans_le fit.1) (Nat.not_lt_zero _)

/-! ## The end -/

/-- A machine comes to its end in so many ticks at most, if no call of the host fails. -/
def EndsWithin (host : Host σ ε) (m : Machine) (s : σ) (bound : Nat) : Prop :=
  ∃ n ≤ bound, (∃ s', HaltsAfter host m s n s') ∨ ∃ e s', FailsAt host m s n (.host e) s'

/-- What is left brings a machine to its end, or to a call in which the host fails. -/
lemma Ticked.ends (bounded : program.Bounded) (enough : program.extent .levels ≤ limit)
    {start : σ} (ticked : Ticked host (load program limit) start m s) :
    EndsWithin host m s (m.ticksLeft (program.procedureExtent .ticks)) := by
  -- on the ticks that are left at most
  generalize bound : m.ticksLeft (program.procedureExtent .ticks) = left
  induction left using Nat.strongRecOn generalizing m s with
  | ind left ih =>
    cases work : m.hasWork with
    | false => exact ⟨0, Nat.zero_le _, .inl ⟨s, m, .rest, work⟩⟩
    | true =>
      have ticks := Machine.ticks host m s
      have fewer := ticks.lt bounded ticked.of work
      rw [bound] at fewer
      have next := ticked.tick
      have deep := ticked.not_tooDeep bounded enough
      have known := ticked.known bounded.known
      cases st : m.tick host s with
      | mk report m1 s1 =>
        rw [st] at ticks fewer next deep known
        cases report with
        | ok progress =>
          cases ticks.running work
          obtain ⟨n, le, ⟨s', m2, run, idle⟩ | ⟨e, s', before, m2, s2, m3, rfl, run, work', st'⟩⟩ :=
            ih _ fewer next rfl
          · exact ⟨n + 1, Nat.succ_le_of_lt (le.trans_lt fewer),
              .inl ⟨s', m2, .tick work st run, idle⟩⟩
          · exact ⟨before + 1 + 1, Nat.succ_le_of_lt (le.trans_lt fewer),
              .inr ⟨e, s', before + 1, m2, s2, m3, rfl, .tick work st run, work', st'⟩⟩
        | error fault =>
          cases fault with
          | host e =>
            exact ⟨1, Nat.one_le_of_lt fewer, .inr ⟨e, s1, 0, m, s, m1, rfl, .rest, work, st⟩⟩
          | unknownProcedure index => exact absurd rfl (known index)
          | tooDeep depth => exact absurd rfl (deep depth)

/-- A bounded program ends in no more ticks than it extends to, if no call of the host fails. -/
theorem load_ends (bounded : program.Bounded) (enough : program.extent .levels ≤ limit)
    (host : Host σ ε) (s : σ) :
    EndsWithin host (load program limit) s (program.extent .ticks) := by
  rw [← ticksLeft_load program limit]
  have start : Ticked host (load program limit) s (load program limit) s := .rest
  exact start.ends bounded enough

end Machine

end BlockPuzzle
