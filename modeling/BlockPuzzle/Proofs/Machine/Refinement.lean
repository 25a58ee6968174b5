import BlockPuzzle.Proofs.Machine.Evaluation
import BlockPuzzle.Proofs.Machine.Run

/-!
# The tick machine refines the evaluation

`Machine.load_ends_iff_evaluate`: a machine loaded with a program halts, fails or goes on for ever
exactly as `Program.evaluate` says, at the same tick, for the same reason and with the same state of
the host.

The proof relates an evaluation to what the machine does from a state on (`Machine.Follows`).
Evaluations are put together as the evaluation puts them together, and for each way there is a lemma
on `Follows`. What a body needs of the bodies in it is `Machine.Leads`, which speaks of a single tick;
the induction is on the room that is left for nesting. A cut evaluation is followed by at least as
many ticks as passes were allowed, which is why a machine that goes on for ever is never said to end.
-/

namespace BlockPuzzle.Machine

variable {σ ε : Type} {host : Host σ ε} {procedures : List Procedure} {limit passes : Nat}

/-- An outcome says what the machine does: it comes to `next`, or it fails, or it makes at least
`bound` ticks. -/
def Follows (host : Host σ ε) (bound : Nat) (m : Machine) (s : σ) (next : Machine) :
    Evaluation σ ε → Prop
  | .done ticks s' => Runs host ticks m s next s'
  | .fault ticks fault s' => FailsAt host m s ticks fault s'
  | .cut => ∃ ticks m' s', bound ≤ ticks ∧ Runs host ticks m s m' s'

/-- What follows a tick: an outcome from the machine that the tick left, or at once its fault. -/
inductive Leads (host : Host σ ε) (bound : Nat) (next : Machine) :
    Tick σ ε → Evaluation σ ε → Prop where
  | went {m s o} :
    Follows host bound m s next o →
    Leads host bound next (m.went s) o
  | failed {m fault s} :
    Leads host bound next (failed m fault s) (.fault 0 fault s)

/-- A machine at work, with its open frames and the room for more. -/
def opened (procedures : List Procedure) (room : Nat) (frames : List Frame) : Machine :=
  ⟨procedures, room, frames, false⟩

/-- A machine with an open frame has work to do. -/
lemma hasWork_opened {room frame outer} :
    (opened procedures room (frame :: outer)).hasWork = true := rfl

/-! ## Putting outcomes together -/

/-- A smaller number of ticks can be promised as well. -/
lemma Follows.mono {b c m s next o} (fol : Follows host c m s next o) (le : b ≤ c) :
    Follows host b m s next o := by
  cases o with
  | done => exact fol
  | fault => exact fol
  | cut =>
    obtain ⟨ticks, m', s', le', run⟩ := fol
    exact ⟨ticks, m', s', Nat.le_trans le le', run⟩

/-- Ticks that were made before delay the outcome. -/
lemma Follows.after {k b m s m1 s1 next o} (run : Runs host k m s m1 s1)
    (fol : Follows host b m1 s1 next o) : Follows host (k + b) m s next (o.delay k) := by
  cases o with
  | done => exact run.trans fol
  | fault ticks fault s' =>
    obtain ⟨before, m2, s2, m3, rfl, run', work, st⟩ := fol
    exact ⟨k + before, m2, s2, m3, rfl, run.trans run', work, st⟩
  | cut =>
    obtain ⟨ticks, m', s', le, run'⟩ := fol
    exact ⟨k + ticks, m', s', Nat.add_le_add_left le k, run.trans run'⟩

/-- Parts that follow each other in the machine follow each other in the evaluation. -/
lemma Follows.andThen {b m s mid next o f} (first : Follows host b m s mid o)
    (rest : ∀ s', Follows host b mid s' next (f s')) :
    Follows host b m s next (o.andThen f) := by
  cases o with
  | done ticks s' => exact (Follows.after first (rest s')).mono (Nat.le_add_left b ticks)
  | fault => exact first
  | cut => exact first

/-- Nothing is left to do where the machine already is. -/
lemma Follows.here {b m s} : Follows host b m s m (.done 0 s) := Runs.rest

/-- One more tick at the beginning. -/
lemma Follows.tick {b m s m1 s1 next o} (work : m.hasWork = true) (st : m.tick host s = m1.went s1)
    (fol : Follows host b m1 s1 next o) : Follows host (b + 1) m s next (o.delay 1) := by
  rw [Nat.add_comm]
  exact fol.after (.single work st)

/-- What a tick leads to follows, one tick later, from before the tick. -/
lemma Leads.follows {b m s next o} (leads : Leads host b next (m.tick host s) o)
    (work : m.hasWork = true) : Follows host (b + 1) m s next (o.delay 1) := by
  generalize e : m.tick host s = t at leads
  cases leads with
  | went fol => exact fol.tick work e
  | failed => exact ⟨0, m, s, _, rfl, .rest, work, e⟩

/-- A tick that only moves on. -/
lemma Leads.here {b m s} : Leads host b m (m.went s) (.done 0 s) := .went .here

/-! ## Single ticks -/

/-- A frame that has not come to its end runs its next statement. -/
lemma tick_statement {room kind body i outer statement} {s : σ} (at_i : body[i]? = some statement) :
    (opened procedures room (⟨kind, body, i⟩ :: outer)).tick host s =
      run host (opened procedures room (⟨kind, body, i + 1⟩ :: outer)) statement s := by
  simp only [tick, opened, at_i]
  rfl

/-- A frame that has come to its end ends its pass. -/
lemma tick_endPass {room kind body outer} {s : σ} :
    (opened procedures room (⟨kind, body, body.length⟩ :: outer)).tick host s =
      endPass host (opened procedures room (⟨kind, body, body.length⟩ :: outer))
        ⟨kind, body, body.length⟩ outer s := by
  have none_left : body[body.length]? = none := List.getElem?_eq_none (Nat.le_refl _)
  simp only [tick, opened, none_left]
  rfl

/-- The first arm is chosen if its condition holds, and else one is looked for among the others. -/
lemma chooseArm_cons {otherwise arm arms} {s : σ} :
    chooseArm host otherwise (arm :: arms) s =
      match arm.condition.eval host s with
      | .ok true s' => .ok (some arm.body) s'
      | .ok false s' => chooseArm host otherwise arms s'
      | .error e s' => .error e s' := by
  simp only [chooseArm, bind, EStateM.bind]
  cases arm.condition.eval host s with
  | ok value s' => cases value <;> rfl
  | error e s' => rfl

/-! ## Conditions -/

mutual

/-- The choice that a condition makes is the one of its answer. -/
theorem evaluate_eq_ofCall (yes no : σ → Evaluation σ ε) (s : σ) :
    ∀ condition : Condition, condition.evaluate host yes no s =
      .ofCall (condition.eval host s) fun holds s => if holds then yes s else no s
  | .literal value => rfl
  | .path side block => rfl
  | .notDone => rfl
  | .negation inner => by
    simp only [Condition.evaluate, evaluate_eq_ofCall no yes s inner, Condition.eval, bind,
      EStateM.bind]
    cases inner.eval host s with
    | ok holds s' => cases holds <;> rfl
    | error e s' => rfl
  | .all items => evaluateAll_eq_ofCall yes no s items
  | .any items => evaluateAny_eq_ofCall yes no s items

/-- Conditions that are all to hold are evaluated as the machine answers them. -/
theorem evaluateAll_eq_ofCall (yes no : σ → Evaluation σ ε) (s : σ) :
    ∀ items : List Condition, evaluateAll host items yes no s =
      .ofCall (evalAll host items s) fun holds s => if holds then yes s else no s
  | [] => rfl
  | item :: items => by
    simp only [evaluateAll, evaluate_eq_ofCall _ no s item, evalAll, bind, EStateM.bind]
    cases item.eval host s with
    | ok holds s' =>
      cases holds with
      | true => exact evaluateAll_eq_ofCall yes no s' items
      | false => rfl
    | error e s' => rfl

/-- So are conditions one of which is to hold. -/
theorem evaluateAny_eq_ofCall (yes no : σ → Evaluation σ ε) (s : σ) :
    ∀ items : List Condition, evaluateAny host items yes no s =
      .ofCall (evalAny host items s) fun holds s => if holds then yes s else no s
  | [] => rfl
  | item :: items => by
    simp only [evaluateAny, evaluate_eq_ofCall yes _ s item, evalAny, bind, EStateM.bind]
    cases item.eval host s with
    | ok holds s' =>
      cases holds with
      | true => rfl
      | false => exact evaluateAny_eq_ofCall yes no s' items
    | error e s' => rfl

end

/-! ## Statements

`enter` stands for the evaluation of the bodies in a statement. All that is asked of it is that it
says what follows when the machine enters a body. -/

section

variable {m : Machine} {enter' : FrameKind → List Statement → σ → Evaluation σ ε}
  (entry : ∀ kind body s, kind ≠ .loop 0 →
    Leads host passes m (m.enter kind body s) (enter' kind body s))

include entry

/-- The arms of a branch are tried alike. -/
lemma leads_arms (otherwise : Option (List Statement)) (arms : List Arm) (s : σ) :
    Leads host passes m (run host m (.branch arms otherwise) s)
      (evaluateArms host enter' otherwise arms s) := by
  induction arms generalizing s with
  | nil =>
    cases otherwise with
    | none => exact .here
    | some body => exact entry .block body s (by simp)
  | cons arm arms ih =>
    simp only [run, chooseArm_cons, evaluateArms, evaluate_eq_ofCall]
    cases arm.condition.eval host s with
    | error e s' => exact .failed
    | ok value s' =>
      cases value with
      | true => exact entry .block arm.body s' (by simp)
      | false => exact ih s'

/-- A statement is run in one tick and whatever the body that it enters takes. -/
lemma follows_statement {m0 : Machine} {statement : Statement} {s : σ}
    (work : m0.hasWork = true) (st : m0.tick host s = run host m statement s)
    (procs : m.procedures = procedures) :
    Follows host (passes + 1) m0 s m (statement.evaluate host procedures enter' s) := by
  unfold Statement.evaluate
  apply Leads.follows _ work
  rw [st]
  cases statement with
  | command order block =>
    simp only [run]
    cases host.command order block s with
    | ok _ s' => exact .here
    | error e s' => exact .failed
  | loop times body =>
    simp only [run]
    by_cases zero : times = 0
    · rw [if_pos zero, if_pos zero]
      exact .here
    · rw [if_neg zero, if_neg zero]
      apply entry
      intro e
      injection e with e
      exact zero (UInt32.toNat_inj.1 e)
  | whileHolds condition body =>
    simp only [run, evaluate_eq_ofCall]
    cases condition.eval host s with
    | error e s' => exact .failed
    | ok value s' =>
      cases value with
      | true => exact entry (.whileHolds condition) body s' (by simp)
      | false => exact .here
  | forever body => exact entry .forever body s (by simp)
  | branch arms otherwise => exact leads_arms entry otherwise arms s
  | call index =>
    simp only [run, procs]
    cases procedures[index]? with
    | some procedure => exact entry .procedure procedure.body s (by simp)
    | none => exact .failed

end

/-! ## Bodies -/

/-- The statements of a body that are left are run in order, up to its end. -/
lemma follows_inOrder {room kind body outer} {run' : Statement → σ → Evaluation σ ε}
    (statements : ∀ i statement s, body[i]? = some statement →
      Follows host passes (opened procedures room (⟨kind, body, i⟩ :: outer)) s
        (opened procedures room (⟨kind, body, i + 1⟩ :: outer)) (run' statement s))
    {left : List Statement} {i : Nat} (s : σ) (le : i ≤ body.length) (e : body.drop i = left) :
    Follows host passes (opened procedures room (⟨kind, body, i⟩ :: outer)) s
      (opened procedures room (⟨kind, body, body.length⟩ :: outer)) (.inOrder run' left s) := by
  induction left generalizing i s with
  | nil =>
    have ge := List.drop_eq_nil_iff.1 e
    obtain rfl := Nat.le_antisymm le ge
    exact .here
  | cons statement left ih =>
    have lt : i < body.length := by
      apply Nat.lt_of_not_le
      intro ge
      rw [List.drop_eq_nil_of_le ge] at e
      cases e
    rw [List.drop_eq_getElem_cons lt] at e
    injection e with e1 e2
    have at_i : body[i]? = some statement := by rw [List.getElem?_eq_getElem lt, e1]
    exact (statements i statement s at_i).andThen fun s' => ih s' lt e2

section

variable {room : Nat} {body : List Statement} {outer : List Frame} {pass : σ → Evaluation σ ε}
  (passed : ∀ kind s, Follows host passes (opened procedures room (⟨kind, body, 0⟩ :: outer)) s
    (opened procedures room (⟨kind, body, body.length⟩ :: outer)) (pass s))

include passed

/-- A body that is left at the end of its pass makes one pass. -/
lemma follows_once {kind} (s : σ)
    (leaves : ∀ s, endPass host (opened procedures room (⟨kind, body, body.length⟩ :: outer))
      ⟨kind, body, body.length⟩ outer s = went (opened procedures (room + 1) outer) s) :
    Follows host passes (opened procedures room (⟨kind, body, 0⟩ :: outer)) s
      (opened procedures (room + 1) outer) (.repeatTimes pass 1 s) := by
  refine (passed kind s).andThen fun s' => ?_
  exact (Follows.here.tick hasWork_opened (tick_endPass.trans (leaves s'))).mono (Nat.le_succ _)

/-- A loop that counts makes as many passes as it has left. -/
lemma follows_times (times : Nat) (s : σ) :
    Follows host passes (opened procedures room (⟨.loop (times + 1), body, 0⟩ :: outer)) s
      (opened procedures (room + 1) outer) (.repeatTimes pass (times + 1) s) := by
  induction times generalizing s with
  | zero => exact follows_once passed s fun _ => rfl
  | succ times ih =>
    refine (passed _ s).andThen fun s' => ?_
    exact ((ih s').tick hasWork_opened (tick_endPass.trans rfl)).mono (Nat.le_succ _)

/-- A loop without an end makes more passes than any bound. -/
lemma follows_forever (n : Nat) (le : n ≤ passes) (s : σ) :
    Follows host n (opened procedures room (⟨.forever, body, 0⟩ :: outer)) s
      (opened procedures (room + 1) outer) (.repeatForever pass n s) := by
  induction n generalizing s with
  | zero => exact ⟨0, _, s, Nat.le_refl 0, .rest⟩
  | succ n ih =>
    refine ((passed _ s).mono le).andThen fun s' => ?_
    exact (ih (Nat.le_of_succ_le le) s').tick hasWork_opened (tick_endPass.trans rfl)

/-- A loop with a test makes passes up to the first test that fails or does not hold. -/
lemma follows_while (condition : Condition) (n : Nat) (le : n ≤ passes) (s : σ) :
    Follows host n (opened procedures room (⟨.whileHolds condition, body, 0⟩ :: outer)) s
      (opened procedures (room + 1) outer) (.repeatWhile (condition.evaluate host) pass n s) := by
  induction n generalizing s with
  | zero => exact ⟨0, _, s, Nat.le_refl 0, .rest⟩
  | succ n ih =>
    refine ((passed _ s).mono le).andThen fun s' => ?_
    apply Leads.follows _ hasWork_opened
    rw [tick_endPass, evaluate_eq_ofCall]
    simp only [endPass]
    cases condition.eval host s' with
    | error e s2 => exact .failed
    | ok value s2 =>
      cases value with
      | true => exact .went (ih (Nat.le_of_succ_le le) s2)
      | false => exact .went .here

/-- A body that has been entered makes the passes of its kind and is left. -/
lemma follows_kind {kind} (s : σ) (ne : kind ≠ .loop 0) :
    Follows host passes (opened procedures room (⟨kind, body, 0⟩ :: outer)) s
      (opened procedures (room + 1) outer) (kind.evaluate host passes pass s) := by
  cases kind with
  | block => exact follows_once passed s fun _ => rfl
  | procedure => exact follows_once passed s fun _ => rfl
  | loop times =>
    cases times with
    | zero => exact absurd rfl ne
    | succ times => exact follows_times passed times s
  | whileHolds condition => exact follows_while passed condition passes (Nat.le_refl _) s
  | forever => exact follows_forever passed passes (Nat.le_refl _) s

end

/-- A body is run as it is evaluated, if that holds of the bodies in it. -/
lemma follows_body {room kind body outer} (s : σ) (ne : kind ≠ .loop 0)
    (entry : ∀ frame kind body s, kind ≠ .loop 0 →
      Leads host passes (opened procedures room (frame :: outer))
        ((opened procedures room (frame :: outer)).enter kind body s)
        (enterBody host procedures limit passes room kind body s)) :
    Follows host passes (opened procedures room (⟨kind, body, 0⟩ :: outer)) s
      (opened procedures (room + 1) outer)
      (enterBody host procedures limit passes (room + 1) kind body s) := by
  refine follows_kind (fun kind s => ?_) s ne
  refine follows_inOrder (fun i statement s at_i => ?_) s (Nat.zero_le _) rfl
  exact (follows_statement (entry _) hasWork_opened (tick_statement at_i) rfl).mono (Nat.le_succ _)

/-- A body that has been entered is run as it is evaluated. -/
lemma follows_enterBody {room kind body outer} (s : σ) (ne : kind ≠ .loop 0)
    (size : room + (outer.length + 1) = limit) :
    Follows host passes (opened procedures room (⟨kind, body, 0⟩ :: outer)) s
      (opened procedures (room + 1) outer)
      (enterBody host procedures limit passes (room + 1) kind body s) := by
  -- the room shrinks by one from a body to those in it, whatever the statements are
  induction room generalizing kind body outer s with
  | zero =>
    refine follows_body s ne fun frame kind body s _ => ?_
    have full : (opened procedures 0 (frame :: outer)).limit = limit := by
      rw [← size]
      rfl
    simp only [enterBody, ← full]
    exact .failed
  | succ room ih =>
    refine follows_body s ne fun frame kind body s ne => ?_
    apply Leads.went
    apply ih s ne
    change room + ((frame :: outer).length + 1) = limit
    rw [List.length_cons]
    omega

/-- What the machine does from the start of a program follows its evaluation. -/
lemma follows_load (host : Host σ ε) (program : Program) (limit passes : Nat) (s : σ) :
    Follows host passes (load program limit) s (opened program.procedures (limit - 1 + 1) [])
      (program.evaluate host limit passes s) := by
  have room : max 1 limit = limit - 1 + 1 := by omega
  unfold Program.evaluate
  rw [room]
  exact follows_enterBody s (by simp) rfl

section

variable {program : Program} {s : σ}

/-- The machine halts as an evaluation is done. -/
lemma load_halts {ticks s'} (e : program.evaluate host limit passes s = .done ticks s') :
    HaltsAfter host (load program limit) s ticks s' := by
  have fol := follows_load host program limit passes s
  rw [e] at fol
  exact ⟨_, fol, rfl⟩

/-- The machine fails as an evaluation does. -/
lemma load_fails {ticks fault s'}
    (e : program.evaluate host limit passes s = .fault ticks fault s') :
    FailsAt host (load program limit) s ticks fault s' := by
  have fol := follows_load host program limit passes s
  rwa [e] at fol

/-- The machine makes at least as many ticks as passes were allowed to an evaluation that is cut. -/
lemma load_goes_on (e : program.evaluate host limit passes s = .cut) :
    ∃ ticks m' s', passes ≤ ticks ∧ Runs host ticks (load program limit) s m' s' := by
  have fol := follows_load host program limit passes s
  rwa [e] at fol

end

/-- The tick machine and the evaluation agree on every program, for every host and every limit of
nesting: on the tick after which no work is left, on the first tick that fails and why, and on
whether there is no such tick. -/
theorem load_ends_iff_evaluate (host : Host σ ε) (program : Program) (limit : Nat) (s : σ) :
    (∀ ticks s', HaltsAfter host (load program limit) s ticks s' ↔
      ∃ passes, program.evaluate host limit passes s = .done ticks s') ∧
    (∀ ticks fault s', FailsAt host (load program limit) s ticks fault s' ↔
      ∃ passes, program.evaluate host limit passes s = .fault ticks fault s') ∧
    (NeverEnds host (load program limit) s ↔
      ∀ passes, program.evaluate host limit passes s = .cut) := by
  refine ⟨fun ticks s' => ⟨fun halted => ?_, fun ⟨_, e⟩ => load_halts e⟩,
    fun ticks fault s' => ⟨fun failed => ?_, fun ⟨_, e⟩ => load_fails e⟩,
    fun never passes => ?_, fun cut => ?_⟩
  · -- more passes than the machine made ticks cannot be cut
    refine ⟨ticks + 1, ?_⟩
    cases e : program.evaluate host limit (ticks + 1) s with
    | done ticks' s2 =>
      obtain ⟨rfl, rfl⟩ := halted.unique (load_halts e)
      rfl
    | fault => exact absurd (load_fails e) halted.not_failsAt
    | cut =>
      obtain ⟨n, m', s2, le, run⟩ := load_goes_on e
      exact absurd (halted.runs_le run) (Nat.not_le_of_lt le)
  · refine ⟨ticks, ?_⟩
    cases e : program.evaluate host limit ticks s with
    | done => exact absurd failed (load_halts e).not_failsAt
    | fault ticks' fault' s2 =>
      obtain ⟨rfl, rfl, rfl⟩ := failed.unique (load_fails e)
      rfl
    | cut =>
      obtain ⟨n, m', s2, le, run⟩ := load_goes_on e
      exact absurd (failed.runs_lt run) (Nat.not_lt_of_le le)
  · cases e : program.evaluate host limit passes s with
    | done ticks s' =>
      obtain ⟨m', s2, run, _⟩ := never (ticks + 1)
      exact absurd ((load_halts e).runs_le run) (Nat.not_succ_le_self ticks)
    | fault ticks fault s' =>
      obtain ⟨m', s2, run, _⟩ := never ticks
      exact absurd ((load_fails e).runs_lt run) (Nat.lt_irrefl ticks)
    | cut => rfl
  · exact .of_runs fun n => load_goes_on (cut n)

end BlockPuzzle.Machine
