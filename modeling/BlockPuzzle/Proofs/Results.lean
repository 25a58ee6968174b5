import Mathlib.Tactic.Lemma

/-!
# Results

What is done in several steps succeeds if each step does: `bind_eq_ok`, `map_eq_ok`, `pure_eq_ok`.
-/

namespace BlockPuzzle

variable {ε α β : Type}

/-- Two steps succeed just if the first one does and then the second one. -/
lemma bind_eq_ok {x : Except ε α} {f : α → Except ε β} {b : β} :
    x >>= f = .ok b ↔ ∃ a, x = .ok a ∧ f a = .ok b := by
  cases x with
  | error e =>
    constructor
    · intro ok
      cases ok
    · rintro ⟨a, ok, -⟩
      cases ok
  | ok a =>
    constructor
    · intro ok
      exact ⟨a, rfl, ok⟩
    · rintro ⟨a', ok, result⟩
      cases ok
      exact result

/-- A result that is mapped is right just if it was, and its value is mapped. -/
lemma map_eq_ok {x : Except ε α} {f : α → β} {b : β} :
    x.map f = .ok b ↔ ∃ a, x = .ok a ∧ f a = b := by
  cases x with
  | error e =>
    constructor
    · intro ok
      cases ok
    · rintro ⟨a, ok, -⟩
      cases ok
  | ok a =>
    constructor
    · intro ok
      exact ⟨a, rfl, Except.ok.inj ok⟩
    · rintro ⟨a', ok, rfl⟩
      cases ok
      rfl

/-- A value is its own result. -/
lemma pure_eq_ok {a b : α} : (pure a : Except ε α) = .ok b ↔ a = b :=
  ⟨fun ok => Except.ok.inj ok, fun same => congrArg Except.ok same⟩

end BlockPuzzle
