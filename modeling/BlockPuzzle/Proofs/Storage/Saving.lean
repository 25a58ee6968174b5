import Mathlib.Tactic.Lemma
import BlockPuzzle.Storage.Files

/-!
# Saving files

Files come and go at places where no directory is, so the calls that save a file leave every path where
it was (`FileTree.Differs`). A save that succeeds leaves the file at its place, nothing at that of the
draft and all else as it was (`FileTree.exists_of_save`), so what was saved is read:
`FileTree.read?_of_save`.
-/

namespace BlockPuzzle

namespace FileTree

variable {tree tree' : FileTree} {path : FilePath} {place : Place} {content : ByteArray}

/-! ## Nodes -/

/-- Without the nodes of a place, the others are found as before. -/
lemma lookup_filter_ne (nodes : List (Place × Node)) (place other : Place) :
    (nodes.filter fun (entry, _) => entry != place).lookup other =
      if other = place then none else nodes.lookup other := by
  induction nodes with
  | nil => simp
  | cons entry nodes ih =>
    obtain ⟨first, node⟩ := entry
    rw [List.filter_cons]
    by_cases same : first = place
    · subst same
      rw [if_neg (by simp), ih, List.lookup_cons]
      split
      · rfl
      · next ne => rw [beq_eq_false_iff_ne.2 ne]
    · rw [if_pos (by simpa using same), List.lookup_cons, List.lookup_cons, ih]
      split
      · next here => rw [beq_iff_eq.1 here, if_neg same]
      · rfl

/-- What is erased is not found any more, all else is. -/
lemma node?_erase (plain : place.isAncestral = false) (tree : FileTree) (other : Place) :
    (tree.erase place).node? other = if other = place then none else tree.node? other := by
  unfold node? erase
  rw [lookup_filter_ne]
  by_cases same : other = place
  · subst same
    rw [plain, if_pos rfl, if_pos rfl]
    rfl
  · rw [if_neg same, if_neg same]

/-- What is put at a place is found there, and all else as before. -/
lemma node?_put (plain : place.isAncestral = false) (tree : FileTree) (node : Node) (other : Place) :
    (tree.put place node).node? other = if other = place then some node else tree.node? other := by
  by_cases same : other = place
  · subst same
    unfold node? put
    rw [plain, if_pos rfl, List.lookup_cons_self]
    rfl
  · have erased := node?_erase plain tree other
    rw [if_neg same] at erased ⊢
    unfold node? put at *
    rw [List.lookup_cons, beq_eq_false_iff_ne.2 same]
    exact erased

/-- A place that is no directory is none of those above. -/
lemma isAncestral_of_isDirectory (plain : tree.isDirectory place = false) :
    place.isAncestral = false := by
  cases ancestral : place.isAncestral with
  | false => rfl
  | true =>
    unfold isDirectory node? at plain
    rw [if_pos ancestral] at plain
    cases plain

/-- Two trees have the same directories, and the same nodes but for the one at a place. -/
structure Differs (tree tree' : FileTree) (place : Place) (node : Option Node) : Prop where
  directories : tree'.isDirectory = tree.isDirectory
  nodes : ∀ other, tree'.node? other = if other = place then node else tree.node? other

/-- A change at a place that is no directory, before or after, leaves the directories. -/
lemma differs_of_plain {node : Option Node} (plain : tree.isDirectory place = false)
    (nodes : ∀ other, tree'.node? other = if other = place then node else tree.node? other)
    (plain' : tree'.isDirectory place = false) : Differs tree tree' place node := by
  refine ⟨funext fun other => ?_, nodes⟩
  by_cases same : other = place
  · rw [same, plain, plain']
  · unfold isDirectory
    rw [nodes, if_neg same]

/-- A file is put where no directory is. -/
lemma differs_put (plain : tree.isDirectory place = false) (content : ByteArray) :
    Differs tree (tree.put place (.file content)) place (some (.file content)) := by
  have nodes := node?_put (isAncestral_of_isDirectory plain) tree (.file content)
  refine differs_of_plain plain nodes ?_
  unfold isDirectory
  rw [nodes, if_pos rfl]

/-- A file is taken away where no directory is. -/
lemma differs_erase (plain : tree.isDirectory place = false) :
    Differs tree (tree.erase place) place none := by
  have nodes := node?_erase (isAncestral_of_isDirectory plain) tree
  refine differs_of_plain plain nodes ?_
  unfold isDirectory
  rw [nodes, if_pos rfl]

/-! ## Places -/

/-- The way down depends on the directories only. -/
lemma descend_eq (same : tree'.isDirectory = tree.isDirectory) (place : Place) (parts : List String) :
    tree'.descend place parts = tree.descend place parts := by
  induction parts generalizing place with
  | nil => rfl
  | cons part parts ih => rw [descend, descend, same, ih]

/-- Where a path leads is a matter of the directories alone. -/
lemma locate?_eq (same : tree'.isDirectory = tree.isDirectory) (path : FilePath) :
    tree'.locate? path = tree.locate? path := by
  unfold locate?
  simp only [descend_eq same]

/-- So does the place of a file. -/
lemma filePlace?_eq (same : tree'.isDirectory = tree.isDirectory) (path : FilePath) :
    tree'.filePlace? path = tree.filePlace? path := by
  unfold filePlace?
  rw [locate?_eq same, same]

/-- A path that leads to a file names no directory and ends at none. -/
lemma of_filePlace? (is : tree.filePlace? path = some place) :
    tree.locate? path = some place ∧ path.namesDirectory = false ∧ tree.isDirectory place = false := by
  unfold filePlace? at is
  simp only [Option.bind_eq_bind, Option.bind_eq_some_iff] at is
  obtain ⟨found, located, name, -, is⟩ := is
  split at is
  · cases is
  · next fit =>
    cases is
    simp only [Bool.or_eq_true, not_or, Bool.not_eq_true] at fit
    exact ⟨located, fit.1.1, fit.1.2⟩

/-! ## Calls -/

/-- Calls that all succeed do so one after the other. -/
lemma exists_of_performAll {call : FileCall} {error : FileError} {calls : List (FileCall × FileError)}
    (all : tree.performAll ((call, error) :: calls) = (.ok (), tree')) :
    ∃ next, tree.perform call = some next ∧ next.performAll calls = (.ok (), tree') := by
  rw [performAll] at all
  split at all
  · next next performed => exact ⟨next, performed, all⟩
  · cases all

/-- A file that is created is empty, and nothing else changes. -/
lemma differs_of_create (performed : tree.perform (.create path) = some tree') :
    ∃ place, tree.filePlace? path = some place ∧
      Differs tree tree' place (some (.file ByteArray.empty)) := by
  obtain ⟨place, is, rfl⟩ := Option.map_eq_some_iff.1 performed
  exact ⟨place, is, differs_put (of_filePlace? is).2.2 _⟩

/-- A file that is written has its new content, and nothing else changes. -/
lemma differs_of_write (performed : tree.perform (.write path content) = some tree') :
    ∃ place, tree.filePlace? path = some place ∧ Differs tree tree' place (some (.file content)) := by
  obtain ⟨place, is, written⟩ := Option.bind_eq_some_iff.1 performed
  split at written
  · cases written
    exact ⟨place, is, differs_put (of_filePlace? is).2.2 _⟩
  · cases written

/-- A file is taken away from its place and put at another one. -/
lemma differs_of_rename {source target : FilePath}
    (performed : tree.perform (.rename source target) = some tree') :
    ∃ origin place content between, tree.filePlace? source = some origin ∧
      tree.filePlace? target = some place ∧ tree.node? origin = some (.file content) ∧
      Differs tree between origin none ∧ Differs between tree' place (some (.file content)) := by
  obtain ⟨origin, source, performed⟩ := Option.bind_eq_some_iff.1 performed
  obtain ⟨place, target, moved⟩ := Option.bind_eq_some_iff.1 performed
  split at moved
  · next content there =>
    cases moved
    have away := differs_erase (of_filePlace? source).2.2
    have plain : (tree.erase origin).isDirectory place = false := by
      rw [away.directories]
      exact (of_filePlace? target).2.2
    exact ⟨origin, place, content, _, source, target, there, away, differs_put plain content⟩
  · cases moved

/-- Nothing changes when a directory is opened. -/
lemma eq_of_openDirectory (performed : tree.perform (.openDirectory path) = some tree') :
    tree' = tree := by
  obtain ⟨place, -, opened⟩ := Option.bind_eq_some_iff.1 performed
  split at opened
  · exact (Option.some.inj opened).symm
  · cases opened

/-- A save that succeeds leaves the file at its place, nothing at that of the draft, and all else as it
was. -/
lemma exists_of_save (saved : tree.save path content = (.ok (), tree')) :
    ∃ origin place, tree.filePlace? (path.withExtension "tmp") = some origin ∧
      tree.filePlace? path = some place ∧ tree'.isDirectory = tree.isDirectory ∧
      ∀ other, tree'.node? other =
        if other = place then some (.file content)
        else if other = origin then none else tree.node? other := by
  obtain ⟨created, performed, saved⟩ := exists_of_performAll saved
  obtain ⟨origin, source, create⟩ := differs_of_create performed
  obtain ⟨written, performed, saved⟩ := exists_of_performAll saved
  obtain ⟨origin', source', write⟩ := differs_of_write performed
  rw [filePlace?_eq create.directories, source] at source'
  cases source'
  have same := write.directories.trans create.directories
  obtain ⟨renamed, performed, saved⟩ := exists_of_performAll saved
  obtain ⟨origin', place, bytes, between, source', target, there, away, moved⟩ :=
    differs_of_rename performed
  rw [filePlace?_eq same, source] at source'
  cases source'
  rw [filePlace?_eq same] at target
  rw [write.nodes, if_pos rfl] at there
  cases there
  -- the last call, if there is one, changes nothing
  have last : tree' = renamed := by
    split at saved
    · obtain ⟨opened, performed, saved⟩ := exists_of_performAll saved
      rw [← eq_of_openDirectory performed]
      exact (congrArg Prod.snd saved).symm
    · exact (congrArg Prod.snd saved).symm
  subst last
  refine ⟨origin, place, source, target, moved.directories.trans (away.directories.trans same), ?_⟩
  intro other
  rw [moved.nodes, away.nodes, write.nodes, create.nodes]
  by_cases draft : other = origin
  · rw [if_pos draft, if_pos draft]
  · rw [if_neg draft, if_neg draft, if_neg draft, if_neg draft]

/-- What was saved is read. -/
lemma read?_of_save (saved : tree.save path content = (.ok (), tree')) :
    tree'.read? path = some content := by
  obtain ⟨origin, place, -, target, same, nodes⟩ := exists_of_save saved
  obtain ⟨located, names, -⟩ := of_filePlace? target
  unfold read?
  rw [names, locate?_eq same, located, Option.bind_some, nodes, if_pos rfl]
  rfl

end FileTree

end BlockPuzzle
