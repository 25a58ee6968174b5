import Mathlib.Tactic.Lemma
import BlockPuzzle.Text.Blank

/-!
# Words

Words that are written with a blank between any two of them are the words of that text:
`Text.words_intercalate`.
-/

namespace BlockPuzzle.Text

/-- A text that is not empty and holds no blanks. -/
structure IsWord (word : List Char) : Prop where
  nonempty : word ≠ []
  solid : ∀ c ∈ word, isBlank c = false

variable {c : Char} {word text : List Char}

/-- Whether something is a word can be computed. -/
lemma isWord_iff : IsWord word ↔ (!word.isEmpty && word.all fun c => !isBlank c) = true := by
  simp only [Bool.and_eq_true, Bool.not_eq_true', List.isEmpty_eq_false_iff, List.all_eq_true]
  exact ⟨fun is => ⟨is.nonempty, is.solid⟩, fun ⟨nonempty, solid⟩ => ⟨nonempty, solid⟩⟩

instance (word : List Char) : Decidable (IsWord word) :=
  decidable_of_iff _ isWord_iff.symm

/-- A character in front begins a word, goes on with the first one, or is a blank. -/
lemma words_cons (c : Char) (text : List Char) : words (c :: text) =
    if isBlank c then words text
    else
      match text, words text with
      | d :: _, word :: others => if isBlank d then [c] :: word :: others else (c :: word) :: others
      | _, others => [c] :: others :=
  words.eq_def (c :: text)

/-- A blank in front makes no difference. -/
lemma words_blank (blank : isBlank c = true) (text : List Char) : words (c :: text) = words text := by
  rw [words_cons, if_pos blank]

/-- A word ends at a blank, or with the text. -/
lemma words_append (is : IsWord word) (breaks : ∀ c ∈ text.head?, isBlank c = true) :
    words (word ++ text) = word :: words text := by
  obtain ⟨nonempty, solid⟩ := is
  induction word with
  | nil => exact absurd rfl nonempty
  | cons c word ih =>
    obtain ⟨first, solid⟩ := List.forall_mem_cons.1 solid
    rw [List.cons_append, words_cons, if_neg (ne_true_of_eq_false first)]
    cases word with
    | nil =>
      cases text with
      | nil => rfl
      | cons d text =>
        have blank : isBlank d = true := breaks d rfl
        rw [List.nil_append]
        cases words (d :: text) with
        | nil => rfl
        | cons other others => simp only [blank, if_true]
    | cons d word =>
      obtain ⟨solid', -⟩ := List.forall_mem_cons.1 solid
      rw [ih (List.cons_ne_nil d word) solid]
      simp only [List.cons_append, solid', Bool.false_eq_true, if_false]

/-- Words that are written with a blank between any two of them are read again. -/
lemma words_intercalate {blank : Char} (is : isBlank blank = true) {written : List (List Char)}
    (are : ∀ word ∈ written, IsWord word) : words ([blank].intercalate written) = written := by
  induction written with
  | nil => rfl
  | cons word written ih =>
    obtain ⟨first, others⟩ := List.forall_mem_cons.1 are
    cases written with
    | nil =>
      have ends : words (word ++ []) = word :: words [] := words_append first nofun
      rw [List.append_nil] at ends
      rw [List.intercalate_singleton, ends]
      rfl
    | cons word' written =>
      rw [List.intercalate_cons_cons, List.append_assoc, words_append first (by simpa using is),
        List.singleton_append, words_blank is, ih others]

end BlockPuzzle.Text
