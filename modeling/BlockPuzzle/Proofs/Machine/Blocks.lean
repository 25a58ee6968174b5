import BlockPuzzle.Proofs.Machine.Calls
import BlockPuzzle.Proofs.Machine.Frames
import BlockPuzzle.Proofs.Program.Blocks

/-!
# The blocks that a machine names

A machine asks its host only through blocks of its program: those that a condition names, and those
of its commands. So what a host keeps when it is called through these blocks, it keeps however many
ticks the machine makes and whatever it answers: `Machine.Ticked.keepsFor`.
-/

namespace BlockPuzzle

variable {σ ε α : Type}

/-! ## Blocks of frames -/

/-- The blocks that are asked through at the end of a pass. -/
def FrameKind.blocks : FrameKind → List BlockId
  | block => []
  | procedure => []
  | loop _ => []
  | whileHolds condition => condition.blocks
  | forever => []

/-- What is named in a frame that a statement opens is named in the statement, or in a procedure. -/
lemma Statement.Opens.blocks {procedures : List Procedure} {statement : Statement}
    {kind : FrameKind} {body : List Statement} {block : BlockId}
    (opens : statement.Opens procedures kind body)
    (mem : block ∈ kind.blocks ++ bodyBlocks body) :
    block ∈ statement.blocks ∨ ∃ procedure ∈ procedures, block ∈ bodyBlocks procedure.body := by
  cases opens with
  | loop => exact .inl mem
  | whileHolds => exact .inl mem
  | forever => exact .inl mem
  | arm is =>
    have named := mem_armsBlocks.2 ⟨_, is, Arm.mem_blocks.2 (.inr mem)⟩
    exact .inl (List.mem_append_left _ named)
  | otherwise => exact .inl (List.mem_append_right _ mem)
  | call called => exact .inr ⟨_, List.mem_of_getElem? called, mem⟩

/-- What is named in a frame is named in the program. -/
lemma Program.Unfolds.blocks {program : Program} {kind : FrameKind} {body : List Statement}
    (unfolds : program.Unfolds kind body) :
    ∀ block ∈ kind.blocks ++ bodyBlocks body, block ∈ program.blockIds := by
  intro block mem
  rw [mem_blockIds]
  induction unfolds with
  | main => exact List.mem_append_left _ mem
  | opened _ is opens ih =>
    obtain here | procedure := opens.blocks mem
    · exact ih (List.mem_append_right _ (mem_bodyBlocks.2 ⟨_, is, here⟩))
    · exact List.mem_append_right _ (List.mem_flatMap.2 procedure)
  | repeated _ repeats ih =>
    cases repeats with
    | forever => exact ih mem
    | loop => exact ih mem
    | whileHolds => exact ih mem

/-! ## What is kept when a host is called through some blocks -/

/-- The calls of a host that are made through some blocks keep `I`, whether they fail or not; and so
does the question that is asked through none. -/
structure Host.KeepsFor (host : Host σ ε) (blocks : List BlockId) (I : σ → Prop) : Prop where
  command {s} (order : Command) {block} :
    block ∈ blocks → I s → Leaves I (fun _ => I) (host.command order block s)
  sense {s} (side : Side) {block} :
    block ∈ blocks → I s → Leaves I (fun _ => I) (host.sense side block s)
  notDone {s} : I s → Leaves I (fun _ => I) (host.notDone s)

section

variable {host : Host σ ε} {blocks : List BlockId} {I : σ → Prop}

/-- What goes on from an answer leaves what it leaves from every answer. -/
lemma Leaves.bind {β : Type} {J : ε → σ → Prop} {x : EStateM ε σ α} {f : α → EStateM ε σ β} {s : σ}
    (first : Leaves I J (x s)) (rest : ∀ value s, I s → Leaves I J (f value s)) :
    Leaves I J ((x >>= f) s) := by
  simp only [Bind.bind, EStateM.bind]
  generalize x s = result at first
  cases result with
  | ok value s => exact rest value s first
  | error e s => exact first

mutual

/-- Answering a condition keeps what the host keeps, if it asks through these blocks only. -/
theorem Condition.eval_keepsFor (keeps : host.KeepsFor blocks I) {s : σ} (inv : I s) :
    ∀ condition : Condition, condition.blocks ⊆ blocks →
      Leaves I (fun _ => I) (condition.eval host s)
  | .literal _, _ => inv
  | .path side block, named => keeps.sense side (named (List.mem_singleton_self block)) inv
  | .notDone, _ => keeps.notDone inv
  | .negation inner, named => (inner.eval_keepsFor keeps inv named).bind fun _ _ inv => inv
  | .all items, named => evalAll_keepsFor keeps inv items named
  | .any items, named => evalAny_keepsFor keeps inv items named

/-- So does answering conditions until one fails. -/
theorem evalAll_keepsFor (keeps : host.KeepsFor blocks I) {s : σ} (inv : I s) :
    ∀ items : List Condition, conditionsBlocks items ⊆ blocks →
      Leaves I (fun _ => I) (evalAll host items s)
  | [], _ => inv
  | item :: items, named => by
    obtain ⟨here, others⟩ := List.append_subset.1 named
    refine (item.eval_keepsFor keeps inv here).bind fun value s inv => ?_
    cases value with
    | true => exact evalAll_keepsFor keeps inv items others
    | false => exact inv

/-- So does answering conditions until one holds. -/
theorem evalAny_keepsFor (keeps : host.KeepsFor blocks I) {s : σ} (inv : I s) :
    ∀ items : List Condition, conditionsBlocks items ⊆ blocks →
      Leaves I (fun _ => I) (evalAny host items s)
  | [], _ => inv
  | item :: items, named => by
    obtain ⟨here, others⟩ := List.append_subset.1 named
    refine (item.eval_keepsFor keeps inv here).bind fun value s inv => ?_
    cases value with
    | true => exact inv
    | false => exact evalAny_keepsFor keeps inv items others

end

/-- Choosing an arm keeps what calls through the blocks of the arms keep. -/
lemma chooseArm_keepsFor (keeps : host.KeepsFor blocks I) (otherwise : Option (List Statement))
    {arms : List Arm} (named : armsBlocks arms ⊆ blocks) {s : σ} (inv : I s) :
    Leaves I (fun _ => I) (chooseArm host otherwise arms s) := by
  induction arms generalizing s with
  | nil => exact inv
  | cons arm arms ih =>
    obtain ⟨here, others⟩ := List.append_subset.1 named
    have asks : arm.condition.blocks ⊆ blocks := fun block mem =>
      here (Arm.mem_blocks.2 (.inl mem))
    refine (arm.condition.eval_keepsFor keeps inv asks).bind fun value s inv => ?_
    cases value with
    | true => exact inv
    | false => exact ih others inv

end

/-! ## Ticks -/

namespace Machine

/-- Entering a body makes no calls. -/
lemma enter_keeps {I : σ → Prop} (m : Machine) (kind : FrameKind) (body : List Statement) {s : σ}
    (inv : I s) : I (m.enter kind body s : Tick σ ε).host := by
  unfold enter
  cases m.room with
  | zero => exact inv
  | succ room => exact inv

section

variable {host : Host σ ε} {blocks : List BlockId} {I : σ → Prop}
  (keeps : host.KeepsFor blocks I) {s : σ} (inv : I s) (m : Machine)

include keeps inv

/-- A statement keeps what calls through its blocks keep. -/
lemma run_keepsFor {statement : Statement} (named : statement.blocks ⊆ blocks) :
    I (m.run host statement s).host := by
  cases statement with
  | command order block =>
    have left := keeps.command order (named (List.mem_singleton_self block)) inv
    simp only [run]
    generalize host.command order block s = result at left
    cases result with
    | ok _ s => exact left
    | error e s => exact left
  | loop times body =>
    simp only [run]
    by_cases zero : times = 0
    · rw [if_pos zero]
      exact inv
    · rw [if_neg zero]
      exact enter_keeps m _ body inv
  | whileHolds condition body =>
    have left := condition.eval_keepsFor keeps inv (List.append_subset.1 named).1
    simp only [run]
    generalize condition.eval host s = result at left
    cases result with
    | ok value s =>
      cases value with
      | true => exact enter_keeps m _ body left
      | false => exact left
    | error e s => exact left
  | forever body => exact enter_keeps m _ body inv
  | branch arms otherwise =>
    have left := chooseArm_keepsFor keeps otherwise (List.append_subset.1 named).1 inv
    simp only [run]
    generalize chooseArm host otherwise arms s = result at left
    cases result with
    | ok chosen s =>
      cases chosen with
      | some body => exact enter_keeps m _ body left
      | none => exact left
    | error e s => exact left
  | call index =>
    simp only [run]
    cases m.procedures[index]? with
    | some procedure => exact enter_keeps m _ procedure.body inv
    | none => exact inv

/-- The end of a pass keeps what calls through the blocks of the frame keep. -/
lemma endPass_keepsFor {frame : Frame} (named : frame.kind.blocks ⊆ blocks) (outer : List Frame) :
    I (m.endPass host frame outer s).host := by
  obtain ⟨kind, body, index⟩ := frame
  cases kind with
  | block => exact inv
  | procedure => exact inv
  | forever => exact inv
  | loop remaining =>
    simp only [endPass]
    by_cases last : remaining - 1 = 0
    · rw [if_pos last]
      exact inv
    · rw [if_neg last]
      exact inv
  | whileHolds condition =>
    have left := condition.eval_keepsFor keeps inv named
    simp only [endPass]
    generalize condition.eval host s = result at left
    cases result with
    | ok value s =>
      cases value with
      | true => exact left
      | false => exact left
    | error e s => exact left

end

variable {host : Host σ ε} {program : Program} {I : σ → Prop} {m : Machine} {s s' : σ}

/-- A tick of a program keeps what calls through the blocks of the program keep. -/
theorem tick_keepsFor (keeps : host.KeepsFor program.blockIds I) (of : m.Of program) (inv : I s) :
    I (m.tick host s).host := by
  unfold tick
  by_cases completed : m.completed = true
  · rw [if_pos completed]
    exact inv
  · rw [if_neg completed]
    cases frames : m.frames with
    | nil => exact inv
    | cons frame outer =>
      have named := (of.frames frame (frames ▸ List.mem_cons_self)).blocks
      simp only
      cases next : frame.body[frame.index]? with
      | some statement =>
        refine run_keepsFor keeps inv _ fun block mem => named block ?_
        exact List.mem_append_right _ (mem_bodyBlocks.2 ⟨_, List.mem_of_getElem? next, mem⟩)
      | none =>
        refine endPass_keepsFor keeps inv m (fun block mem => named block ?_) outer
        exact List.mem_append_left _ mem

/-- And so does any number of ticks. -/
theorem Ticked.keepsFor (keeps : host.KeepsFor program.blockIds I) {limit : Nat}
    (ticked : Ticked host (load program limit) s m s') (inv : I s) : I s' := by
  induction ticked with
  | rest => exact inv
  | tick ticked ih => exact tick_keepsFor keeps ticked.of ih

end Machine

/-! ## Calls -/

/-- The block through which a call is made. -/
def Request.block? : Request → Option BlockId
  | command _ block => some block
  | sense _ block => some block
  | notDone => none

/-- Calls are made through some blocks only. -/
def MadeThrough (blocks : List BlockId) (calls : List (Call σ)) : Prop :=
  ∀ call ∈ calls, ∀ block ∈ call.request.block?, block ∈ blocks

/-- A call that is made through some blocks is noted behind others of this kind, also if it fails.
-/
lemma note_madeThrough {blocks : List BlockId} {request : Request} {answer : α → Option Bool}
    {ask : EStateM ε σ α} {p : σ × List (Call σ)}
    (here : ∀ block ∈ request.block?, block ∈ blocks) (before : MadeThrough blocks p.2) :
    Leaves (fun p => MadeThrough blocks p.2) (fun _ p => MadeThrough blocks p.2)
      (note request answer ask p) := by
  obtain ⟨s, calls⟩ := p
  simp only [note]
  cases ask s with
  | ok value s => exact List.forall_mem_cons.2 ⟨here, before⟩
  | error e s => exact List.forall_mem_cons.2 ⟨here, before⟩

/-- The calls that are made through some blocks are noted with these blocks. -/
lemma Host.noting_keepsFor (host : Host σ ε) (blocks : List BlockId) :
    host.noting.KeepsFor blocks fun p => MadeThrough blocks p.2 := by
  constructor
  · intro p order block mem
    refine note_madeThrough fun other is => ?_
    cases is
    exact mem
  · intro p side block mem
    refine note_madeThrough fun other is => ?_
    cases is
    exact mem
  · intro p
    refine note_madeThrough fun other is => ?_
    cases is

/-- Any number of ticks of a program makes calls through the blocks of the program only. -/
theorem Machine.Ticked.calls {host : Host σ ε} {program : Program} {limit : Nat} {m : Machine}
    {s s' : σ} {calls : List (Call σ)}
    (ticked : Ticked host.noting (load program limit) (s, []) m (s', calls)) :
    MadeThrough program.blockIds calls := by
  have noted := host.noting_keepsFor program.blockIds
  have kept := ticked.keepsFor noted fun _ mem => absurd mem List.not_mem_nil
  exact kept

end BlockPuzzle
