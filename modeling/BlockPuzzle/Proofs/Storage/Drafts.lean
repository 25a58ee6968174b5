import Mathlib.Data.List.Basic
import Mathlib.Tactic.Lemma
import BlockPuzzle.Proofs.Storage.Saving

/-!
# Drafts

The draft of a file has the file name with another extension, in the same directory. A file is its own
draft just if it has that extension already (`FilePath.EndsWith.withExtension_eq_self_iff`); otherwise a
draft that can be made at all is at another place than the file: `FileTree.eq_of_draft_meets`.
-/

namespace BlockPuzzle

namespace FilePath

variable {path : FilePath} {parts before : List String} {name part extension : String}

/-! ## Parts -/

/-- The pieces of a text do not hold what separates them. -/
lemma not_mem_of_mem_splitOn {c : Char} {text piece : List Char} (mem : piece ∈ text.splitOn c) :
    c ∉ piece := by
  induction text generalizing piece with
  | nil =>
    rw [List.splitOn_nil, List.mem_singleton] at mem
    rw [mem]
    exact List.not_mem_nil
  | cons d text ih =>
    rw [List.splitOn_cons_eq_if_modifyHead] at mem
    by_cases same : (d == c) = true
    · rw [if_pos same] at mem
      rcases List.mem_cons.1 mem with rfl | later
      · exact List.not_mem_nil
      · exact ih later
    · rw [if_neg same] at mem
      cases pieces : text.splitOn c with
      | nil => exact absurd pieces (List.splitOn_ne_nil _ _)
      | cons first others =>
        rw [pieces] at mem ih
        rcases List.mem_cons.1 mem with rfl | later
        · intro inside
          rcases List.mem_cons.1 inside with rfl | inside
          · exact same (beq_self_eq_true c)
          · exact ih List.mem_cons_self inside
        · exact ih (List.mem_cons_of_mem _ later)

/-- The path whose parts are these. -/
def ofParts (parts : List String) : FilePath :=
  ⟨"/".intercalate parts⟩

/-- Parts have no slashes in them. -/
lemma solid_of_mem_parts (mem : part ∈ path.parts) : '/' ∉ part.toList := by
  obtain ⟨piece, among, rfl⟩ := List.mem_map.1 mem
  rw [String.toList_ofList]
  exact not_mem_of_mem_splitOn among

/-- A path is put together from its parts. -/
lemma ofParts_parts (path : FilePath) : ofParts path.parts = path := by
  have text : ("/".intercalate path.parts).toList = path.text.toList := by
    rw [String.toList_intercalate, parts, List.map_map]
    have same : String.toList ∘ String.ofList = id := funext fun _ => String.toList_ofList
    rw [same, List.map_id]
    exact List.intercalate_splitOn '/'
  exact congrArg FilePath.mk (String.toList_inj.1 text)

/-- A path is read as the parts that it was made of. -/
lemma parts_ofParts (nonempty : parts ≠ []) (solid : ∀ part ∈ parts, '/' ∉ part.toList) :
    (ofParts parts).parts = parts := by
  have split : ("/".intercalate parts).toList.splitOn '/' = parts.map String.toList := by
    rw [String.toList_intercalate]
    refine List.splitOn_intercalate '/' (fun piece mem => ?_) (mt List.map_eq_nil_iff.1 nonempty)
    obtain ⟨part, among, rfl⟩ := List.mem_map.1 mem
    exact solid part among
  unfold FilePath.parts
  rw [ofParts, split, List.map_map]
  have same : String.ofList ∘ String.toList = id := funext fun _ => String.ofList_toList
  rw [same, List.map_id]

/-- A path ends with a file name behind these parts. -/
structure EndsWith (path : FilePath) (before : List String) (name : String) : Prop where
  parts : path.parts = before ++ [name]
  counts : isIdle name = false
  ne_parent : name ≠ ".."

/-- A file name is not empty. -/
lemma EndsWith.ne_empty (ends : path.EndsWith before name) : name ≠ "" := by
  rintro rfl
  cases ends.counts

/-- Nor is it the dot that stands for the directory itself. -/
lemma EndsWith.ne_here (ends : path.EndsWith before name) : name ≠ "." := by
  rintro rfl
  cases ends.counts

/-- A path that does not name a directory ends with a file name. -/
lemma exists_endsWith (names : path.namesDirectory = false) :
    ∃ before name, path.EndsWith before name := by
  unfold namesDirectory at names
  cases last : path.parts.getLast? with
  | none =>
    rw [last] at names
    cases names
  | some name =>
    rw [last] at names
    obtain ⟨counts, parent⟩ := Bool.or_eq_false_iff.1 names
    obtain ⟨before, parts⟩ := List.getLast?_eq_some_iff.1 last
    exact ⟨before, name, parts, counts, beq_eq_false_iff_ne.1 parent⟩

/-! ## Extensions -/

/-- A stem is the beginning of its file name. -/
lemma stem_begins (name : String) : (stem name).toList <+: name.toList := by
  unfold stem
  split
  · next d c rest found =>
    have suffix : c :: rest <:+ name.toList.reverse := by
      have whole := List.dropWhile_suffix (l := name.toList.reverse) (· != '.')
      rw [found] at whole
      exact (List.suffix_cons d _).trans whole
    rw [String.toList_ofList]
    simpa using List.reverse_prefix.2 suffix
  · exact List.prefix_rfl

/-- An extension without dots is taken off behind a stem. -/
lemma stem_append {first : String} (nonempty : first ≠ "") (plain : '.' ∉ extension.toList) :
    stem (first ++ "." ++ extension) = first := by
  have ends : ∀ rest, (extension.toList.reverse ++ '.' :: rest).dropWhile (· != '.') = '.' :: rest := by
    intro rest
    rw [List.dropWhile_append_of_pos, List.dropWhile_cons_of_neg (by decide)]
    intro c mem
    refine bne_iff_ne.2 ?_
    rintro rfl
    exact plain (List.mem_reverse.1 mem)
  obtain ⟨c, before, chars⟩ :=
    List.exists_cons_of_ne_nil (mt List.reverse_eq_nil_iff.1 (mt String.toList_eq_nil_iff.1 nonempty))
  have reversed : (first ++ "." ++ extension).toList.reverse =
      extension.toList.reverse ++ '.' :: c :: before := by
    rw [String.toList_append, String.toList_append, List.reverse_append, List.reverse_append, chars]
    rfl
  unfold stem
  rw [reversed, ends]
  simp only
  rw [← chars, List.reverse_reverse, String.ofList_toList]

/-- A name that is not empty has a stem that is not. -/
lemma stem_ne_empty (nonempty : name ≠ "") : stem name ≠ "" := by
  unfold stem
  split
  · intro empty
    rw [String.ofList_eq_empty_iff, List.reverse_eq_nil_iff] at empty
    cases empty
  · exact nonempty

/-! ## Drafts -/

/-- The file name with another extension; behind a single dot nothing is left that could name a file. -/
def draftName (name extension : String) : String :=
  if stem name = "." then ".." else stem name ++ "." ++ extension

/-- The extension of the file name is replaced. -/
lemma EndsWith.withExtension (ends : path.EndsWith before name) (extension : String) :
    path.withExtension extension = ofParts (before ++ [draftName name extension]) := by
  have backward : path.partsFromName = name :: before.reverse := by
    unfold partsFromName
    rw [ends.parts, List.reverse_concat,
      List.dropWhile_cons_of_neg (ne_true_of_eq_false ends.counts)]
  have hides : path.hidesParent name = decide (stem name = ".") := by
    unfold hidesParent
    rw [ends.parts, List.getLast?_concat, beq_self_eq_true, Bool.and_true]
    rfl
  unfold FilePath.withExtension draftName
  rw [backward]
  simp only [if_neg ends.ne_parent, hides, decide_eq_true_eq]
  by_cases single : stem name = "."
  · rw [if_pos single, if_pos single, List.reverse_cons, List.reverse_reverse]
    rfl
  · rw [if_neg single, if_neg single, List.reverse_cons, List.reverse_reverse]
    rfl

/-- A draft is in the directory of its file. -/
lemma EndsWith.parts_withExtension (ends : path.EndsWith before name)
    (solid : '/' ∉ extension.toList) :
    (path.withExtension extension).parts = before ++ [draftName name extension] := by
  rw [ends.withExtension]
  refine parts_ofParts (by simp) fun part mem => ?_
  rcases List.mem_append.1 mem with mem | mem
  · exact solid_of_mem_parts (ends.parts ▸ List.mem_append_left _ mem)
  · rw [List.mem_singleton.1 mem, draftName]
    split
    · decide
    · have inside : '/' ∉ (stem name).toList := fun slash =>
        solid_of_mem_parts (ends.parts ▸ List.mem_append_right _ List.mem_cons_self)
          ((stem_begins name).subset slash)
      simpa using ⟨inside, solid⟩

/-- A file is its own draft if the draft has the same name. -/
lemma EndsWith.withExtension_eq_self (ends : path.EndsWith before name)
    (same : draftName name extension = name) : path.withExtension extension = path := by
  rw [ends.withExtension, same, ← ends.parts, ofParts_parts]

/-- A file is its own draft just if its name has the extension of a draft, behind something else than a
single dot. -/
theorem EndsWith.withExtension_eq_self_iff (ends : path.EndsWith before name)
    (plain : '.' ∉ extension.toList) (solid : '/' ∉ extension.toList) :
    path.withExtension extension = path ↔
      ∃ first, first ≠ "" ∧ first ≠ "." ∧ name = first ++ "." ++ extension := by
  constructor
  · intro same
    have names : draftName name extension = name := by
      have parts := ends.parts_withExtension solid
      rw [same, ends.parts] at parts
      simpa using parts.symm
    unfold draftName at names
    split at names
    · exact absurd names.symm ends.ne_parent
    · next single => exact ⟨_, stem_ne_empty ends.ne_empty, single, names.symm⟩
  · rintro ⟨first, nonempty, single, rfl⟩
    refine ends.withExtension_eq_self ?_
    rw [draftName, stem_append nonempty plain, if_neg single]

end FilePath

/-! ## Places of drafts -/

namespace FileTree

open FilePath (EndsWith draftName)

variable {tree : FileTree} {path : FilePath} {place : Place} {before : List String}
  {name extension : String}

/-- Where a path leads is called by its file name. -/
lemma getLast?_of_locate? (ends : path.EndsWith before name)
    (located : tree.locate? path = some place) : place.getLast? = some name := by
  unfold locate? at located
  split at located
  · cases located
  · have backward : (path.parts.filter (· != "")).reverse =
        name :: (before.filter (· != "")).reverse := by
      rw [ends.parts, List.filter_append, List.filter_cons_of_pos (by simp [ends.ne_empty])]
      simp
    simp only [backward, Option.map_eq_some_iff] at located
    obtain ⟨directory, -, rfl⟩ := located
    rw [enter, if_neg (not_or.2 ⟨ends.ne_here, ends.ne_empty⟩), if_neg ends.ne_parent,
      List.getLast?_concat]

/-- A draft that can be made is at the place of its file only if the file is its own draft. -/
theorem eq_of_draft_meets (solid : '/' ∉ extension.toList)
    (made : tree.filePlace? (path.withExtension extension) = some place)
    (located : tree.locate? path = some place) (names : path.namesDirectory = false) :
    path.withExtension extension = path := by
  obtain ⟨located', names', -⟩ := of_filePlace? made
  obtain ⟨before, name, ends⟩ := FilePath.exists_endsWith names
  obtain ⟨before', name', ends'⟩ := FilePath.exists_endsWith names'
  have parts := ends.parts_withExtension solid
  rw [ends'.parts] at parts
  obtain ⟨-, rfl⟩ : before' = before ∧ name' = draftName name extension := by simpa using parts
  have same := (getLast?_of_locate? ends' located').symm.trans (getLast?_of_locate? ends located)
  exact ends.withExtension_eq_self (Option.some.inj same)

end FileTree

end BlockPuzzle
