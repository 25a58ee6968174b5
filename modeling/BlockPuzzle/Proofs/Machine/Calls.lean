import BlockPuzzle.Machine.Basic
import Mathlib.Tactic.Lemma

/-!
# The calls that a machine makes of its host

A machine knows its host by the answers only. `Host.Agrees` relates two hosts that give the same
answers in related states, and `Machine.tick_agrees` shows that no tick can tell them apart. With a
host beside itself this is the rule for invariants (`Host.Keeps`): what every call keeps, every tick
keeps.

`Host.noting` is a host with a list of the calls made of it. It agrees with the host that it notes,
so the list tells what happens in a run between the ticks.
-/

namespace BlockPuzzle

variable {σ τ ε α : Type}

/-- Two results with the same answer or the same failure, in related states: `R` relates states
after an answer and `Q` those after a failure. -/
inductive Agree (R : σ → τ → Prop) (Q : ε → σ → τ → Prop) :
    EStateM.Result ε σ α → EStateM.Result ε τ α → Prop where
  | ok {value s t} :
    R s t →
    Agree R Q (.ok value s) (.ok value t)
  | error {e s t} :
    Q e s t →
    Agree R Q (.error e s) (.error e t)

/-- Two hosts whose calls agree from related states on. -/
structure Host.Agrees (R : σ → τ → Prop) (Q : ε → σ → τ → Prop) (host : Host σ ε)
    (host' : Host τ ε) : Prop where
  command {s t} (order : Command) (block : BlockId) :
    R s t → Agree R Q (host.command order block s) (host'.command order block t)
  sense {s t} (side : Side) (block : BlockId) :
    R s t → Agree R Q (host.sense side block s) (host'.sense side block t)
  notDone {s t} : R s t → Agree R Q (host.notDone s) (host'.notDone t)

/-- Two ticks that report the same and leave the same machine, in related states of the hosts. -/
inductive TicksAgree (R : σ → τ → Prop) (Q : ε → σ → τ → Prop) : Tick σ ε → Tick τ ε → Prop where
  | ok {progress m s t} :
    R s t →
    TicksAgree R Q ⟨.ok progress, m, s⟩ ⟨.ok progress, m, t⟩
  | host {e m s t} :
    Q e s t →
    TicksAgree R Q ⟨.error (.host e), m, s⟩ ⟨.error (.host e), m, t⟩
  | machine {fault m s t} :
    (∀ e, fault ≠ .host e) →
    R s t →
    TicksAgree R Q ⟨.error fault, m, s⟩ ⟨.error fault, m, t⟩

section

variable {R : σ → τ → Prop} {Q : ε → σ → τ → Prop} {host : Host σ ε} {host' : Host τ ε}

/-- Results that agree are both answers or both failures. -/
lemma Agree.inv {x : EStateM.Result ε σ α} {y : EStateM.Result ε τ α} (agree : Agree R Q x y) :
    (∃ value s t, x = .ok value s ∧ y = .ok value t ∧ R s t) ∨
    (∃ e s t, x = .error e s ∧ y = .error e t ∧ Q e s t) := by
  cases agree with
  | ok rel => exact .inl ⟨_, _, _, rfl, rfl, rel⟩
  | error rel => exact .inr ⟨_, _, _, rfl, rfl, rel⟩

/-- Results that are chosen by the same test agree if both choices do. -/
lemma Agree.ite {c : Prop} [Decidable c] {x x' : EStateM.Result ε σ α} {y y' : EStateM.Result ε τ α}
    (pos : c → Agree R Q x y) (neg : ¬c → Agree R Q x' y') :
    Agree R Q (if c then x else x') (if c then y else y') := by
  by_cases holds : c
  · rw [if_pos holds, if_pos holds]
    exact pos holds
  · rw [if_neg holds, if_neg holds]
    exact neg holds

/-! ## Conditions -/

/-- What goes on from an answer agrees if it does for every answer. -/
lemma Agree.bind {β : Type} {x : EStateM ε σ α} {y : EStateM ε τ α} {f : α → EStateM ε σ β}
    {g : α → EStateM ε τ β} {s t} (first : Agree R Q (x s) (y t))
    (rest : ∀ value s t, R s t → Agree R Q (f value s) (g value t)) :
    Agree R Q ((x >>= f) s) ((y >>= g) t) := by
  simp only [Bind.bind, EStateM.bind]
  obtain ⟨value, s', t', e1, e2, rel⟩ | ⟨e, s', t', e1, e2, rel⟩ := first.inv
  · rw [e1, e2]
    exact rest value s' t' rel
  · rw [e1, e2]
    exact .error rel

mutual

/-- Hosts that agree give agreeing answers to a condition. -/
theorem Condition.eval_agrees (agrees : host.Agrees R Q host') {s t} (rel : R s t) :
    ∀ condition : Condition, Agree R Q (condition.eval host s) (condition.eval host' t)
  | .literal _ => .ok rel
  | .path side block => agrees.sense side block rel
  | .notDone => agrees.notDone rel
  | .negation inner => (inner.eval_agrees agrees rel).bind fun _ _ _ rel => .ok rel
  | .all items => evalAll_agrees agrees rel items
  | .any items => evalAny_agrees agrees rel items

/-- So they do to conditions until one fails. -/
theorem evalAll_agrees (agrees : host.Agrees R Q host') {s t} (rel : R s t) :
    ∀ items : List Condition, Agree R Q (evalAll host items s) (evalAll host' items t)
  | [] => .ok rel
  | item :: items => by
    refine (item.eval_agrees agrees rel).bind fun value s t rel => ?_
    cases value with
    | true => exact evalAll_agrees agrees rel items
    | false => exact .ok rel

/-- So they do to conditions until one holds. -/
theorem evalAny_agrees (agrees : host.Agrees R Q host') {s t} (rel : R s t) :
    ∀ items : List Condition, Agree R Q (evalAny host items s) (evalAny host' items t)
  | [] => .ok rel
  | item :: items => by
    refine (item.eval_agrees agrees rel).bind fun value s t rel => ?_
    cases value with
    | true => exact .ok rel
    | false => exact evalAny_agrees agrees rel items

end

/-- The same arm is chosen. -/
lemma chooseArm_agrees (agrees : host.Agrees R Q host') {s t} (rel : R s t)
    (otherwise : Option (List Statement)) (arms : List Arm) :
    Agree R Q (chooseArm host otherwise arms s) (chooseArm host' otherwise arms t) := by
  induction arms generalizing s t with
  | nil => exact .ok rel
  | cons arm arms ih =>
    refine (arm.condition.eval_agrees agrees rel).bind fun value s t rel => ?_
    cases value with
    | true => exact .ok rel
    | false => exact ih rel

/-! ## Ticks -/

namespace Machine

/-- A body is entered alike, or refused alike. -/
lemma enter_agrees {s t} (rel : R s t) (m : Machine) (kind : FrameKind) (body : List Statement) :
    TicksAgree R Q (m.enter kind body s) (m.enter kind body t) := by
  unfold enter
  cases m.room with
  | zero => exact .machine (by simp) rel
  | succ room => exact .ok rel

/-- A statement is run alike. -/
lemma run_agrees (agrees : host.Agrees R Q host') {s t} (rel : R s t) (m : Machine)
    (statement : Statement) :
    TicksAgree R Q (m.run host statement s) (m.run host' statement t) := by
  cases statement with
  | command order block =>
    simp only [run]
    obtain ⟨_, s', t', e1, e2, rel⟩ | ⟨e, s', t', e1, e2, rel⟩ :=
      (agrees.command order block rel).inv
    · rw [e1, e2]
      exact .ok rel
    · rw [e1, e2]
      exact .host rel
  | loop times body =>
    simp only [run]
    by_cases zero : times = 0
    · rw [if_pos zero, if_pos zero]
      exact .ok rel
    · rw [if_neg zero, if_neg zero]
      exact enter_agrees rel m _ body
  | whileHolds condition body =>
    simp only [run]
    obtain ⟨value, s', t', e1, e2, rel⟩ | ⟨e, s', t', e1, e2, rel⟩ :=
      (condition.eval_agrees agrees rel).inv
    · rw [e1, e2]
      cases value with
      | true => exact enter_agrees rel m _ body
      | false => exact .ok rel
    · rw [e1, e2]
      exact .host rel
  | forever body => exact enter_agrees rel m _ body
  | branch arms otherwise =>
    simp only [run]
    obtain ⟨value, s', t', e1, e2, rel⟩ | ⟨e, s', t', e1, e2, rel⟩ :=
      (chooseArm_agrees agrees rel otherwise arms).inv
    · rw [e1, e2]
      cases value with
      | some body => exact enter_agrees rel m _ body
      | none => exact .ok rel
    · rw [e1, e2]
      exact .host rel
  | call index =>
    simp only [run]
    cases m.procedures[index]? with
    | some procedure => exact enter_agrees rel m _ procedure.body
    | none => exact .machine (by simp) rel

/-- A pass is ended alike. -/
lemma endPass_agrees (agrees : host.Agrees R Q host') {s t} (rel : R s t) (m : Machine)
    (frame : Frame) (outer : List Frame) :
    TicksAgree R Q (m.endPass host frame outer s) (m.endPass host' frame outer t) := by
  obtain ⟨kind, body, index⟩ := frame
  cases kind with
  | block => exact .ok rel
  | procedure => exact .ok rel
  | forever => exact .ok rel
  | loop remaining =>
    simp only [endPass]
    by_cases last : remaining - 1 = 0
    · rw [if_pos last, if_pos last]
      exact .ok rel
    · rw [if_neg last, if_neg last]
      exact .ok rel
  | whileHolds condition =>
    simp only [endPass]
    obtain ⟨value, s', t', e1, e2, rel⟩ | ⟨e, s', t', e1, e2, rel⟩ :=
      (condition.eval_agrees agrees rel).inv
    · rw [e1, e2]
      cases value with
      | true => exact .ok rel
      | false => exact .ok rel
    · rw [e1, e2]
      exact .host rel

/-- No tick can tell two hosts apart that agree. -/
theorem tick_agrees (agrees : host.Agrees R Q host') {s t} (rel : R s t) (m : Machine) :
    TicksAgree R Q (m.tick host s) (m.tick host' t) := by
  unfold tick
  by_cases completed : m.completed = true
  · rw [if_pos completed, if_pos completed]
    exact .ok rel
  · rw [if_neg completed, if_neg completed]
    cases m.frames with
    | nil => exact .ok rel
    | cons frame outer =>
      simp only
      cases frame.body[frame.index]? with
      | some statement => exact run_agrees agrees rel _ statement
      | none => exact endPass_agrees agrees rel m frame outer

end Machine

end

/-! ## Invariants -/

/-- Every call keeps `I`; one that fails leaves `J` instead. -/
def Host.Keeps (host : Host σ ε) (I : σ → Prop) (J : ε → σ → Prop) : Prop :=
  host.Agrees (fun s t => s = t ∧ I s) (fun e s t => s = t ∧ J e s) host

/-- What holds after a call: `I` after an answer, `J` after a failure. -/
def Leaves (I : σ → Prop) (J : ε → σ → Prop) : EStateM.Result ε σ α → Prop
  | .ok _ s => I s
  | .error e s => J e s

/-- What always holds of an outcome makes the outcome agree with itself. -/
lemma Leaves.agree {I : σ → Prop} {J : ε → σ → Prop} {result : EStateM.Result ε σ α}
    (leaves : Leaves I J result) :
    Agree (fun s t => s = t ∧ I s) (fun e s t => s = t ∧ J e s) result result := by
  cases result with
  | ok => exact .ok ⟨rfl, leaves⟩
  | error => exact .error ⟨rfl, leaves⟩

/-- An invariant is shown call by call. -/
lemma Host.Keeps.of_leaves {host : Host σ ε} {I : σ → Prop} {J : ε → σ → Prop}
    (command : ∀ order block s, I s → Leaves I J (host.command order block s))
    (sense : ∀ side block s, I s → Leaves I J (host.sense side block s))
    (notDone : ∀ s, I s → Leaves I J (host.notDone s)) : host.Keeps I J where
  command order block := by
    rintro ⟨rfl, inv⟩
    exact (command order block _ inv).agree
  sense side block := by
    rintro ⟨rfl, inv⟩
    exact (sense side block _ inv).agree
  notDone {s t} := by
    rintro ⟨rfl, inv⟩
    exact (notDone _ inv).agree

/-! ## Noting calls -/

/-- What a machine can ask of its host. -/
inductive Request where
  | command (order : Command) (block : BlockId)
  | sense (side : Side) (block : BlockId)
  | notDone
  deriving DecidableEq

/-- A call with the answer that was given to a question, and the states before and after it. -/
structure Call (σ : Type) where
  request : Request
  answer : Option Bool
  before : σ
  after : σ

/-- Makes a call and notes it; the newest call comes first. -/
def note (request : Request) (answer : α → Option Bool) (ask : EStateM ε σ α) :
    EStateM ε (σ × List (Call σ)) α := fun (s, calls) =>
  match ask s with
  | .ok value s' => .ok value (s', ⟨request, answer value, s, s'⟩ :: calls)
  | .error e s' => .error e (s', ⟨request, none, s, s'⟩ :: calls)

/-- A host with a list of the calls made of it. -/
def Host.noting (host : Host σ ε) : Host (σ × List (Call σ)) ε where
  command order block := note (.command order block) (fun _ => none) (host.command order block)
  sense side block := note (.sense side block) some (host.sense side block)
  notDone := note .notDone some host.notDone

/-- Calls, oldest first, that lead from one state to another: each is made where the one before it
has ended. -/
inductive Linked : σ → List (Call σ) → σ → Prop where
  | nil {s} :
    Linked s [] s
  | cons {call calls t} :
    Linked call.after calls t →
    Linked call.before (call :: calls) t

/-- One more call linked on to where it ends. -/
lemma Linked.snoc {s t u : σ} {calls : List (Call σ)} {request answer} (linked : Linked s calls t) :
    Linked s (calls ++ [⟨request, answer, t, u⟩]) u := by
  induction linked with
  | @nil s =>
    have last : Linked u [] u := .nil
    exact @Linked.cons _ ⟨request, answer, s, u⟩ _ _ last
  | cons _ ih => exact .cons ih

/-- Noting a call changes nothing else. -/
lemma note_agrees {request : Request} {answer : α → Option Bool} {ask : EStateM ε σ α}
    (s : σ) (calls : List (Call σ)) :
    Agree (fun s p => p.1 = s) (fun _ s p => p.1 = s) (ask s)
      (note request answer ask (s, calls)) := by
  simp only [note]
  cases ask s with
  | ok value s' => exact .ok rfl
  | error e s' => exact .error rfl

/-- A host agrees with the one that notes its calls. -/
theorem Host.noting_agrees (host : Host σ ε) :
    host.Agrees (fun s p => p.1 = s) (fun _ s p => p.1 = s) host.noting where
  command {s t} order block := by
    rintro rfl
    exact note_agrees t.1 t.2
  sense {s t} side block := by
    rintro rfl
    exact note_agrees t.1 t.2
  notDone {s t} := by
    rintro rfl
    exact note_agrees t.1 t.2

/-- The calls noted lead to where the host is. -/
theorem Host.noting_linked (host : Host σ ε) (s : σ) :
    host.noting.Keeps (fun p => Linked s p.2.reverse p.1) fun _ p => Linked s p.2.reverse p.1 := by
  have noted : ∀ {α : Type} {request : Request} {answer : α → Option Bool} {ask : EStateM ε σ α}
      {p : σ × List (Call σ)}, Linked s p.2.reverse p.1 →
      Leaves (fun p => Linked s p.2.reverse p.1) (fun _ p => Linked s p.2.reverse p.1)
        (note request answer ask p) := by
    intro α request answer ask ⟨t, calls⟩ linked
    simp only [note]
    cases ask t with
    | ok value u =>
      simp only [Leaves, List.reverse_cons]
      exact linked.snoc
    | error e u =>
      simp only [Leaves, List.reverse_cons]
      exact linked.snoc
  exact .of_leaves (fun _ _ _ => noted) (fun _ _ _ => noted) fun _ => noted

end BlockPuzzle
