import BlockPuzzle.Proofs.Attempt.Deed

/-!
# Runs of a walk

`Walk.runOn` is the run of a walk on any host with the interrupts of a walk. Hosts that agree run to
ends that agree (`Walk.runOn_agrees`), so what every call keeps holds at the end of a run, and the
run on the host that notes its calls ends as the run on the board itself. `Attempt.calls` lists
those calls.

`Attempt.execute_keeps` carries an invariant of the calls through the execution of a script, whether
it compiles or not.
-/

namespace BlockPuzzle

namespace Walk

/-- Ticks a machine as a walk does, on any host with the interrupts of a walk. -/
def runOn {σ : Type} (host : Host σ Interrupt) (budget ticks : Nat) (machine : Machine)
    (state : σ) : Ending × Nat × σ :=
  if machine.hasWork then
    match budget with
    | 0 => (.exhausted, ticks, state)
    | budget + 1 =>
      let tick := machine.tick host state
      match tick.report with
      | .ok _ => runOn host budget (ticks + 1) tick.machine tick.host
      | .error fault => (endingOf fault, ticks + 1, tick.host)
  else (.completed, ticks, state)

/-- A walk runs on its board. -/
lemma run_eq_runOn (board : Board) (rule : SenseRule) (budget ticks : Nat) (machine : Machine)
    (walk : Walk) : run board rule budget ticks machine walk =
      runOn (host board rule) budget ticks machine walk := by
  induction budget generalizing ticks machine walk with
  | zero => rfl
  | succ budget ih =>
    unfold run runOn
    by_cases work : machine.hasWork = true
    · rw [if_pos work, if_pos work]
      simp only
      generalize machine.tick (host board rule) walk = tick
      cases tick.report with
      | ok => exact ih _ _ _
      | error => rfl
    · rw [if_neg work, if_neg work]

/-- Two ends of a run, alike but for related states. An end that no call made is neither of those
that the interrupts make. -/
inductive EndsAgree {σ τ : Type} (R : σ → τ → Prop) (Q : Interrupt → σ → τ → Prop) :
    Ending × Nat × σ → Ending × Nat × τ → Prop where
  | machine {ending ticks s t} :
    ending ≠ .finished →
    ending ≠ .crashed →
    R s t →
    EndsAgree R Q (ending, ticks, s) (ending, ticks, t)
  | host {interrupt ticks s t} :
    Q interrupt s t →
    EndsAgree R Q (endingOf (.host interrupt), ticks, s) (endingOf (.host interrupt), ticks, t)

/-- Runs on hosts that agree end alike. -/
theorem runOn_agrees {σ τ : Type} {R : σ → τ → Prop} {Q : Interrupt → σ → τ → Prop}
    {host : Host σ Interrupt} {host' : Host τ Interrupt} (agrees : host.Agrees R Q host')
    (budget ticks : Nat) (machine : Machine) {s t} (rel : R s t) :
    EndsAgree R Q (runOn host budget ticks machine s) (runOn host' budget ticks machine t) := by
  induction budget generalizing ticks machine s t with
  | zero =>
    unfold runOn
    by_cases work : machine.hasWork = true
    · rw [if_pos work, if_pos work]
      exact .machine (by simp) (by simp) rel
    · rw [if_neg work, if_neg work]
      exact .machine (by simp) (by simp) rel
  | succ budget ih =>
    unfold runOn
    by_cases work : machine.hasWork = true
    · rw [if_pos work, if_pos work]
      have ticked := machine.tick_agrees agrees rel
      generalize machine.tick host s = a at ticked
      generalize machine.tick host' t = b at ticked
      cases ticked with
      | ok rel => exact ih _ _ rel
      | host rel => exact .host rel
      | @machine fault m s t own rel =>
        cases fault with
        | host e => exact absurd rfl (own e)
        | unknownProcedure index => exact .machine (by simp [endingOf]) (by simp [endingOf]) rel
        | tooDeep limit => exact .machine (by simp [endingOf]) (by simp [endingOf]) rel
    · rw [if_neg work, if_neg work]
      exact .machine (by simp) (by simp) rel

/-- What holds at the end of a run: `I` if the machine made the end, `J` if an interrupt did. -/
def EndsWith {σ : Type} (I : σ → Prop) (J : Interrupt → σ → Prop) (ending : Ending) (s : σ) :
    Prop :=
  (ending ≠ .finished ∧ ending ≠ .crashed ∧ I s) ∨
  ∃ interrupt, ending = endingOf (.host interrupt) ∧ J interrupt s

/-- What no interrupt takes away holds however the run ended. -/
lemma EndsWith.holds {σ : Type} {I : σ → Prop} {ending : Ending} {s : σ}
    (ends : EndsWith I (fun _ => I) ending s) : I s := by
  obtain ⟨-, -, inv⟩ | ⟨_, -, inv⟩ := ends
  · exact inv
  · exact inv

/-- What every call keeps holds at the end of a run. -/
lemma runOn_endsWith {σ : Type} {I : σ → Prop} {J : Interrupt → σ → Prop} {host : Host σ Interrupt}
    (keeps : host.Keeps I J) (budget ticks : Nat) (machine : Machine) {s} (inv : I s) :
    EndsWith I J (runOn host budget ticks machine s).1 (runOn host budget ticks machine s).2.2 := by
  have agree := runOn_agrees keeps budget ticks machine ⟨rfl, inv⟩
  generalize runOn host budget ticks machine s = a at agree
  cases agree with
  | machine finished crashed rel => exact .inl ⟨finished, crashed, rel.2⟩
  | host rel => exact .inr ⟨_, rfl, rel.2⟩

/-- Noting the calls changes nothing about the end of a run. -/
lemma runOn_noting {σ : Type} (host : Host σ Interrupt) (budget ticks : Nat) (machine : Machine)
    (s : σ) :
    (runOn host.noting budget ticks machine (s, [])).1 = (runOn host budget ticks machine s).1 ∧
    (runOn host.noting budget ticks machine (s, [])).2.2.1 =
      (runOn host budget ticks machine s).2.2 := by
  have agree := runOn_agrees host.noting_agrees budget ticks machine (t := (s, [])) rfl
  generalize runOn host budget ticks machine s = a at agree
  generalize runOn host.noting budget ticks machine (s, []) = b at agree
  cases agree with
  | machine _ _ rel => exact ⟨rfl, rel⟩
  | host rel => exact ⟨rfl, rel⟩

variable {board : Board} {rule : SenseRule}

/-- An invariant of a walk with its calls is shown deed by deed, and for the question whether FINISH
is still to be reached. -/
lemma noting_keeps {I : Walk × List (Call Walk) → Prop}
    {J : Interrupt → Walk × List (Call Walk) → Prop}
    (deed : ∀ {walk calls walk' request answer block action}, I (walk, calls) →
      request ≠ .notDone → Deed board walk.attempt.logical action none →
      Records walk walk' ⟨block, action⟩ → I (walk', ⟨request, answer, walk, walk'⟩ :: calls))
    (last : ∀ {walk calls walk' request answer block action interrupt}, I (walk, calls) →
      request ≠ .notDone → Deed board walk.attempt.logical action (some interrupt) →
      Records walk walk' ⟨block, action⟩ →
      J interrupt (walk', ⟨request, answer, walk, walk'⟩ :: calls))
    (question : ∀ {walk calls}, I (walk, calls) →
      I (walk,
        ⟨.notDone, some !board.isFinish walk.attempt.logical.position, walk, walk⟩ :: calls)) :
    (host board rule).noting.Keeps I J := by
  have noted : ∀ {α : Type} {request : Request} {answer : α → Option Bool} {block walk calls}
      {ask : EStateM Interrupt Walk α}, request ≠ .notDone → Results board walk block (ask walk) →
      I (walk, calls) → Leaves I J (note request answer ask (walk, calls)) := by
    intro α request answer block walk calls ask ne results inv
    simp only [note]
    generalize ask walk = result at results
    cases results with
    | ok does records => exact deed inv ne does records
    | error does records => exact last inv ne does records
  refine .of_leaves (fun order block p inv => ?_) (fun side block p inv => ?_) fun p inv => ?_
  · exact noted (by simp) (results_command order) inv
  · exact noted (by simp) (results_sense rule side) inv
  · exact question inv

/-- An invariant that no interrupt takes away is shown for any deed at once. -/
lemma noting_holds {I : Walk × List (Call Walk) → Prop}
    (deed : ∀ {walk calls walk' request answer block action interrupt}, I (walk, calls) →
      Deed board walk.attempt.logical action interrupt → Records walk walk' ⟨block, action⟩ →
      I (walk', ⟨request, answer, walk, walk'⟩ :: calls))
    (question : ∀ {walk calls}, I (walk, calls) →
      I (walk,
        ⟨.notDone, some !board.isFinish walk.attempt.logical.position, walk, walk⟩ :: calls)) :
    (host board rule).noting.Keeps I fun _ => I :=
  noting_keeps (fun inv _ => deed inv) (fun inv _ => deed inv) question

/-- What a run never touches. -/
structure Spares (walk walk' : Walk) : Prop where
  display : walk'.attempt.display = walk.attempt.display
  verdict : walk'.attempt.verdict = walk.attempt.verdict
  animated : walk'.attempt.marks.animated = walk.attempt.marks.animated

/-- A run touches neither the pose that is shown nor what belongs to a replay. -/
lemma run_spares (board : Board) (rule : SenseRule) (budget ticks : Nat) (machine : Machine)
    (walk : Walk) : Spares walk (run board rule budget ticks machine walk).2.2 := by
  have keeps : (host board rule).noting.Keeps (fun p => Spares walk p.1)
      fun _ p => Spares walk p.1 := by
    apply noting_holds
    · intro _ _ _ _ _ _ _ _ inv _ records
      exact ⟨records.display.trans inv.display, records.verdict.trans inv.verdict,
        records.animated.trans inv.animated⟩
    · intro _ _ inv
      exact inv
  obtain ⟨-, state⟩ := runOn_noting (host board rule) budget ticks machine walk
  rw [run_eq_runOn, ← state]
  exact (runOn_endsWith keeps budget ticks machine (s := (walk, [])) ⟨rfl, rfl, rfl⟩).holds

end Walk

namespace Attempt

/-- The calls of the board that the execution of a script makes, oldest first. -/
def calls (attempt : Attempt) (board : Board) (settings : Settings) (script : String) :
    List (Call Walk) :=
  match Program.compile script with
  | .ok program =>
    (Walk.runOn (Walk.host board settings.senseRule).noting settings.tickBudget.toNat 0
      (Machine.load program settings.maxCallDepth.toNat) (Walk.start attempt, [])).2.2.2.reverse
  | .error _ => []

variable {attempt : Attempt} {board : Board} {settings : Settings}

/-- Every ending comes to a verdict. -/
lemma classify_ne_unset (ending : Ending) (position finish : Point) :
    ending.classify position finish ≠ .unset := by
  cases ending with
  | finished =>
    by_cases there : position = finish
    · simp [Ending.classify, there]
    · simp [Ending.classify, there]
  | completed =>
    by_cases there : position = finish
    · simp [Ending.classify, there]
    · simp [Ending.classify, there]
  | crashed => simp [Ending.classify]
  | exhausted => simp [Ending.classify]
  | fault => simp [Ending.classify]

/-- The end of an attempt without a verdict: it gets the one that fits. -/
lemma conclude_of_unset (unset : attempt.verdict = .unset) (script program : String)
    (ending : Ending) (ticks divergences : Nat) :
    attempt.conclude board script program ending ticks divergences =
      (⟨program, Digest.hex script, ending,
        ending.classify attempt.logical.position board.finish, ticks, attempt.journal.size,
        attempt.logical, divergences⟩,
        { attempt with verdict := ending.classify attempt.logical.position board.finish }) := by
  simp only [conclude, settle, if_pos unset]

/-- What every call keeps holds when a script has been executed; the attempt is the one that the
walk left, with the verdict that fits, and the divergences are those that the walk counted. -/
theorem execute_ends {I : Walk × List (Call Walk) → Prop}
    {J : Interrupt → Walk × List (Call Walk) → Prop}
    (keeps : (Walk.host board settings.senseRule).noting.Keeps I J)
    (script : String) (unset : attempt.verdict = .unset) (inv : I (Walk.start attempt, [])) :
    ∃ walk report, attempt.execute board settings script =
        (report, { walk.attempt with verdict := report.verdict }) ∧
      report.verdict = report.ending.classify walk.attempt.logical.position board.finish ∧
      Walk.Spares (Walk.start attempt) walk ∧
      Linked (Walk.start attempt) (attempt.calls board settings script) walk ∧
      report.divergences = walk.divergences ∧
      Walk.EndsWith I J report.ending (walk, (attempt.calls board settings script).reverse) := by
  unfold execute calls
  cases Program.compile script with
  | error e =>
    -- a script that does not compile makes no calls
    refine ⟨Walk.start attempt, _, conclude_of_unset unset _ _ _ _ _, rfl, ⟨rfl, rfl, rfl⟩, .nil,
      rfl, ?_⟩
    exact .inl ⟨by simp, by simp, inv⟩
  | ok program =>
    simp only [List.reverse_reverse]
    generalize settings.tickBudget.toNat = budget
    generalize Machine.load program settings.maxCallDepth.toNat = machine
    have spares := Walk.run_spares board settings.senseRule budget 0 machine (Walk.start attempt)
    have ends := Walk.runOn_endsWith keeps budget 0 machine inv
    have linked := Walk.runOn_endsWith ((Walk.host board settings.senseRule).noting_linked
      (Walk.start attempt)) budget 0 machine (s := (Walk.start attempt, [])) .nil
    obtain ⟨ending, state⟩ :=
      Walk.runOn_noting (Walk.host board settings.senseRule) budget 0 machine (Walk.start attempt)
    -- the invariant is known of the run that notes its calls; its end is that of the walk
    rw [ending] at ends
    rw [← Walk.run_eq_runOn] at ends state
    refine ⟨_, _, conclude_of_unset (spares.verdict.trans unset) _ _ _ _ _, rfl, spares, ?_, rfl, ?_⟩
    · rw [← state]
      exact linked.holds
    · rw [← state]
      exact ends

/-- What every call keeps holds when a script has been executed, whatever the walk has counted. -/
theorem execute_keeps {I : Walk × List (Call Walk) → Prop}
    {J : Interrupt → Walk × List (Call Walk) → Prop}
    (keeps : (Walk.host board settings.senseRule).noting.Keeps I J)
    (script : String) (unset : attempt.verdict = .unset) (inv : I (Walk.start attempt, [])) :
    ∃ walk report, attempt.execute board settings script =
        (report, { walk.attempt with verdict := report.verdict }) ∧
      report.verdict = report.ending.classify walk.attempt.logical.position board.finish ∧
      Walk.Spares (Walk.start attempt) walk ∧
      Linked (Walk.start attempt) (attempt.calls board settings script) walk ∧
      Walk.EndsWith I J report.ending (walk, (attempt.calls board settings script).reverse) := by
  obtain ⟨walk, report, executed, verdict, spares, linked, -, ends⟩ :=
    execute_ends keeps script unset inv
  exact ⟨walk, report, executed, verdict, spares, linked, ends⟩

end Attempt

end BlockPuzzle
