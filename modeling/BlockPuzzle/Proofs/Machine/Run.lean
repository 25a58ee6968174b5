import BlockPuzzle.Machine.Basic
import Mathlib.Tactic.Lemma

/-!
# Runs of the tick machine

`Machine.Runs` relates two states of a machine and its host by the number of ticks between them. A
tick counts only if there was work to do and it did not fail. A run can end in two ways: no work is
left (`Machine.HaltsAfter`), or the next tick fails (`Machine.FailsAt`); or it has no end
(`Machine.NeverEnds`). A machine is deterministic, so it does exactly one of these, at one time and
with one state of the host.
-/

namespace BlockPuzzle.Machine

variable {σ ε : Type} {host : Host σ ε}

/-- So many ticks lead from one state to another, each with work to do and none failing. -/
inductive Runs (host : Host σ ε) : Nat → Machine → σ → Machine → σ → Prop where
  | rest {m s} :
    Runs host 0 m s m s
  | tick {n m s m1 s1 m2 s2} :
    m.hasWork = true →
    m.tick host s = m1.went s1 →
    Runs host n m1 s1 m2 s2 →
    Runs host (n + 1) m s m2 s2

/-- After exactly so many ticks, none of which fails, no work is left. -/
def HaltsAfter (host : Host σ ε) (m : Machine) (s : σ) (ticks : Nat) (s' : σ) : Prop :=
  ∃ m', Runs host ticks m s m' s' ∧ m'.hasWork = false

/-- The last of so many ticks is the first one that fails. -/
def FailsAt (host : Host σ ε) (m : Machine) (s : σ) (ticks : Nat) (fault : Fault ε) (s' : σ) :
    Prop :=
  ∃ (before : Nat) (m1 : Machine) (s1 : σ) (m2 : Machine), ticks = before + 1 ∧
    Runs host before m s m1 s1 ∧ m1.hasWork = true ∧ m1.tick host s1 = m2.failed fault s'

/-- After any number of ticks, none of which fails, there is work left. -/
def NeverEnds (host : Host σ ε) (m : Machine) (s : σ) : Prop :=
  ∀ ticks, ∃ m' s', Runs host ticks m s m' s' ∧ m'.hasWork = true

/-- No further tick can be made without a failure. -/
def Final (host : Host σ ε) (m : Machine) (s : σ) : Prop :=
  ∀ (m' : Machine) (s' : σ), m.hasWork = true → m.tick host s ≠ m'.went s'

/-- A tick that succeeds leaves one machine and one state. -/
lemma went_inj {m1 m2 : Machine} {s1 s2 : σ}
    (e : (m1.went s1 : Tick σ ε) = m2.went s2) : m1 = m2 ∧ s1 = s2 := by
  cases e
  exact ⟨rfl, rfl⟩

/-- Runs follow one another. -/
lemma Runs.trans {k n m s m1 s1 m2 s2} (first : Runs host k m s m1 s1)
    (second : Runs host n m1 s1 m2 s2) : Runs host (k + n) m s m2 s2 := by
  induction first with
  | rest => rwa [Nat.zero_add]
  | @tick k m s m3 s3 m1 s1 work st _ ih =>
    rw [show k + 1 + n = k + n + 1 from by omega]
    exact .tick work st (ih second)

/-- A single tick is a run. -/
lemma Runs.single {m s m1 s1} (work : m.hasWork = true) (st : m.tick host s = m1.went s1) :
    Runs host 1 m s m1 s1 :=
  .tick work st .rest

/-- A run splits at every shorter length. -/
lemma Runs.split {k n m s m2 s2} (run : Runs host n m s m2 s2) (le : k ≤ n) :
    ∃ m1 s1, Runs host k m s m1 s1 ∧ Runs host (n - k) m1 s1 m2 s2 := by
  induction run generalizing k with
  | rest =>
    obtain rfl := Nat.le_zero.mp le
    exact ⟨_, _, .rest, .rest⟩
  | @tick n m s m1 s1 m2 s2 work st rest ih =>
    cases k with
    | zero => exact ⟨m, s, .rest, .tick work st rest⟩
    | succ k =>
      obtain ⟨m3, s3, run1, run2⟩ := ih (Nat.le_of_succ_le_succ le)
      refine ⟨m3, s3, .tick work st run1, ?_⟩
      rwa [Nat.succ_sub_succ]

/-- The state after a number of ticks is determined. -/
lemma Runs.det {n m s m1 s1 m2 s2} (run1 : Runs host n m s m1 s1)
    (run2 : Runs host n m s m2 s2) : m1 = m2 ∧ s1 = s2 := by
  induction run1 with
  | rest =>
    cases run2
    exact ⟨rfl, rfl⟩
  | tick _ st1 _ ih =>
    cases run2 with
    | tick _ st2 rest2 =>
      obtain ⟨rfl, rfl⟩ := went_inj (st1.symm.trans st2)
      exact ih rest2

/-- No run from the same start is longer than one to a final state. -/
lemma Runs.le_of_final {k n m s m1 s1 m2 s2} (run1 : Runs host k m s m1 s1)
    (final : Final host m1 s1) (run2 : Runs host n m s m2 s2) : n ≤ k := by
  apply Nat.le_of_not_lt
  intro lt
  obtain ⟨m3, s3, short, rest⟩ := run2.split (Nat.le_of_lt lt)
  obtain ⟨rfl, rfl⟩ := run1.det short
  generalize e : n - k = left at rest
  cases rest with
  | rest => omega
  | tick work st _ => exact final _ _ work st

/-- There is only one final state that a run can come to, at one time. -/
lemma Runs.final_unique {k n m s m1 s1 m2 s2} (run1 : Runs host k m s m1 s1)
    (final1 : Final host m1 s1) (run2 : Runs host n m s m2 s2) (final2 : Final host m2 s2) :
    k = n ∧ m1 = m2 ∧ s1 = s2 := by
  have le1 := run1.le_of_final final1 run2
  have le2 := run2.le_of_final final2 run1
  obtain rfl : k = n := Nat.le_antisymm le2 le1
  exact ⟨rfl, run1.det run2⟩

/-- A machine without work is final. -/
lemma Final.of_idle {m : Machine} {s : σ} (idle : m.hasWork = false) : Final host m s := by
  intro m' s' work
  rw [idle] at work
  cases work

/-- So is one whose next tick fails. -/
lemma Final.of_failed {m m2 : Machine} {s s2 : σ} {fault : Fault ε}
    (st : m.tick host s = m2.failed fault s2) : Final host m s := by
  intro m' s' _ e
  rw [st] at e
  cases e

/-- A machine halts after one number of ticks and in one state only. -/
lemma HaltsAfter.unique {k n m s s1 s2} (halts1 : HaltsAfter host m s k s1)
    (halts2 : HaltsAfter host m s n s2) : k = n ∧ s1 = s2 := by
  obtain ⟨m1, run1, idle1⟩ := halts1
  obtain ⟨m2, run2, idle2⟩ := halts2
  obtain ⟨e, -, es⟩ := run1.final_unique (.of_idle idle1) run2 (.of_idle idle2)
  exact ⟨e, es⟩

/-- It fails at one tick, with one fault and in one state only. -/
lemma FailsAt.unique {k n m s fault1 fault2 s1 s2} (fails1 : FailsAt host m s k fault1 s1)
    (fails2 : FailsAt host m s n fault2 s2) : k = n ∧ fault1 = fault2 ∧ s1 = s2 := by
  obtain ⟨b1, m1, t1, m1', rfl, run1, _, st1⟩ := fails1
  obtain ⟨b2, m2, t2, m2', rfl, run2, _, st2⟩ := fails2
  obtain ⟨rfl, rfl, rfl⟩ := run1.final_unique (.of_failed st1) run2 (.of_failed st2)
  rw [st1] at st2
  cases st2
  exact ⟨rfl, rfl, rfl⟩

/-- A machine that halts does not fail. -/
lemma HaltsAfter.not_failsAt {k n m s s1 fault s2} (halts : HaltsAfter host m s k s1) :
    ¬ FailsAt host m s n fault s2 := by
  rintro ⟨b, m2, t2, m2', rfl, run2, work, st⟩
  obtain ⟨m1, run1, idle⟩ := halts
  obtain ⟨-, rfl, -⟩ := run1.final_unique (.of_idle idle) run2 (.of_failed st)
  rw [idle] at work
  cases work

/-- A machine that halts makes no more ticks than it took. -/
lemma HaltsAfter.runs_le {k n m s s1 m2 s2} (halts : HaltsAfter host m s k s1)
    (run : Runs host n m s m2 s2) : n ≤ k := by
  obtain ⟨m1, run1, idle⟩ := halts
  exact run1.le_of_final (.of_idle idle) run

/-- A machine that fails makes fewer ticks before. -/
lemma FailsAt.runs_lt {k n m s fault s1 m2 s2} (fails : FailsAt host m s k fault s1)
    (run : Runs host n m s m2 s2) : n < k := by
  obtain ⟨b, m1, t1, m1', rfl, run1, _, st⟩ := fails
  exact Nat.lt_succ_of_le (run1.le_of_final (.of_failed st) run)

/-- A machine that makes any number of ticks has work left after any number of them. -/
lemma NeverEnds.of_runs {m s} (long : ∀ n, ∃ ticks m' s', n ≤ ticks ∧ Runs host ticks m s m' s') :
    NeverEnds host m s := by
  intro ticks
  obtain ⟨n, m2, s2, lt, run⟩ := long (ticks + 1)
  obtain ⟨m1, s1, short, rest⟩ := run.split (Nat.le_of_lt lt)
  refine ⟨m1, s1, short, ?_⟩
  generalize e : n - ticks = left at rest
  cases rest with
  | rest => omega
  | tick work _ _ => exact work

end BlockPuzzle.Machine
