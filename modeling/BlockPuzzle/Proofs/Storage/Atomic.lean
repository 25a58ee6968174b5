import BlockPuzzle.Proofs.Storage.Drafts

/-!
# What readers find while a file is saved

A call of the file system changes what is found at a path only if it touches the place of that path
(`FileTree.found?_eq_of_differs`). So as long as a draft is made and filled, its file is found as it was,
unless it is its own draft: `FileTree.save_never_partial`. A save that succeeds leaves all other files
alone but for the one that was at the place of the draft: `FileTree.save_spares_others`.
-/

namespace BlockPuzzle

namespace FileTree

variable {tree tree' : FileTree} {path other draft : FilePath} {place : Place} {node : Option Node}
  {content : ByteArray}

/-- What is found at the end of a path, a file or a directory. A path that names a directory does not
lead to a file. -/
def found? (tree : FileTree) (path : FilePath) : Option Node :=
  match (tree.locate? path).bind tree.node? with
  | some (.file content) => if path.namesDirectory then none else some (.file content)
  | found => found

/-- What is read is the file that is found. -/
lemma read?_eq_some_iff : tree.read? path = some content ↔ tree.found? path = some (.file content) := by
  unfold read? found?
  generalize (tree.locate? path).bind tree.node? = found
  cases found with
  | none => simp
  | some node =>
    cases node with
    | file content' =>
      cases path.namesDirectory with
      | true => simp
      | false => simp
    | directory => simp

/-- At the end of a path that leads to a file stands what is at that place. -/
lemma found?_of_filePlace? (is : tree.filePlace? path = some place) :
    tree.found? path = tree.node? place := by
  obtain ⟨located, names, -⟩ := of_filePlace? is
  unfold found?
  rw [located, Option.bind_some, names]
  cases tree.node? place with
  | none => rfl
  | some node => cases node <;> rfl

/-- A path that names a directory does not lead to anything else. -/
lemma found?_of_namesDirectory (located : tree.locate? path = some place)
    (plain : tree.isDirectory place = false) (names : path.namesDirectory = true) :
    tree.found? path = none := by
  unfold isDirectory at plain
  unfold found?
  rw [located, Option.bind_some, names]
  cases there : tree.node? place with
  | none => rfl
  | some node =>
    cases node with
    | file content => rfl
    | directory =>
      rw [there] at plain
      cases plain

/-- What is found at a path is a matter of the directories and of the node that it leads to. -/
lemma found?_congr (directories : tree'.isDirectory = tree.isDirectory)
    (nodes : ∀ place, tree.locate? path = some place → tree'.node? place = tree.node? place) :
    tree'.found? path = tree.found? path := by
  unfold found?
  rw [locate?_eq directories]
  cases located : tree.locate? path with
  | none => rfl
  | some place => rw [Option.bind_some, Option.bind_some, nodes place located]

/-- A path that leads to another place than the one that is touched, or names a directory, finds what it
has found before. -/
lemma found?_eq_of_differs (differs : Differs tree tree' place node)
    (plain : tree.isDirectory place = false)
    (apart : tree.locate? path = some place → path.namesDirectory = true) :
    tree'.found? path = tree.found? path := by
  by_cases here : tree.locate? path = some place
  · have here' := (locate?_eq differs.directories path).trans here
    rw [found?_of_namesDirectory here plain (apart here)]
    exact found?_of_namesDirectory here' (differs.directories ▸ plain) (apart here)
  · refine found?_congr differs.directories fun place' located => ?_
    rw [differs.nodes, if_neg]
    rintro rfl
    exact here located

/-! ## Drafts -/

/-- A draft that is made can be filled. -/
lemma exists_of_create (content : ByteArray) (created : tree.perform (.create draft) = some tree') :
    ∃ place written, tree.filePlace? draft = some place ∧
      Differs tree tree' place (some (.file ByteArray.empty)) ∧
      tree'.perform (.write draft content) = some written ∧
      Differs tree written place (some (.file content)) := by
  obtain ⟨place, is, create⟩ := differs_of_create created
  have is' : tree'.filePlace? draft = some place := (filePlace?_eq create.directories draft).trans is
  have there : tree'.node? place = some (.file ByteArray.empty) := by
    rw [create.nodes, if_pos rfl]
  have performed : tree'.perform (.write draft content) =
      some (tree'.put place (.file content)) := by
    simp only [perform, is', Option.bind_eq_bind, Option.bind_some, there]
    rfl
  have write := differs_put (of_filePlace? is').2.2 content
  refine ⟨place, _, is, create, performed, write.directories.trans create.directories, ?_⟩
  intro other
  rw [write.nodes, create.nodes]
  by_cases here : other = place
  · rw [if_pos here, if_pos here]
  · rw [if_neg here, if_neg here, if_neg here]

/-- When a draft has been made or filled, its file is found as it was, unless it is its own draft. -/
lemma found?_of_draft (made : tree.filePlace? (path.withExtension "tmp") = some place)
    (differs : Differs tree tree' place (some (.file content))) :
    tree'.found? path = tree.found? path ∨
      path.withExtension "tmp" = path ∧ tree'.read? path = some content := by
  by_cases own : path.withExtension "tmp" = path
  · rw [own] at made
    have made' := (filePlace?_eq differs.directories path).trans made
    refine .inr ⟨own, ?_⟩
    rw [read?_eq_some_iff, found?_of_filePlace? made', differs.nodes, if_pos rfl]
  · refine .inl (found?_eq_of_differs differs (of_filePlace? made).2.2 fun located => ?_)
    cases names : path.namesDirectory with
    | true => rfl
    | false => exact absurd (eq_of_draft_meets (by decide) made located names) own

/-- A file is found where its draft has been moved to. -/
lemma read?_of_rename (made : tree.filePlace? draft = some place)
    (filled : tree.node? place = some (.file content))
    (performed : tree.perform (.rename draft path) = some tree') : tree'.read? path = some content := by
  obtain ⟨origin, target, content', between, source, is, there, away, moved⟩ :=
    differs_of_rename performed
  cases made.symm.trans source
  cases filled.symm.trans there
  have is' : tree'.filePlace? path = some target :=
    (filePlace?_eq (moved.directories.trans away.directories) path).trans is
  rw [read?_eq_some_iff, found?_of_filePlace? is', moved.nodes, if_pos rfl]

/-! ## Saving -/

/-- What may be found while a file is saved: what was found before, or the whole new content. -/
def Whole (tree : FileTree) (path : FilePath) (content : ByteArray) (after : FileTree) : Prop :=
  after.found? path = tree.found? path ∨ after.read? path = some content

/-- Directories are opened without any change. -/
lemma performAll_opens {calls : List (FileCall × FileError)}
    (opens : ∀ call ∈ calls, ∃ path, call.1 = .openDirectory path) (tree : FileTree) :
    (tree.performAll calls).2 = tree := by
  induction calls with
  | nil => rfl
  | cons call calls ih =>
    obtain ⟨⟨path, is⟩, others⟩ := List.forall_mem_cons.1 opens
    obtain ⟨call, error⟩ := call
    subst is
    rw [performAll]
    cases performed : tree.perform (.openDirectory path) with
    | none => rfl
    | some next =>
      rw [eq_of_openDirectory performed]
      exact ih others

/-- The calls that save a file make a draft, fill it and move it; what they do then is to open a
directory. -/
lemma exists_saveCalls (path : FilePath) (content : ByteArray) :
    ∃ last, saveCalls path content =
        (.create (path.withExtension "tmp"), .uncreated (path.withExtension "tmp")) ::
          (.write (path.withExtension "tmp") content, .unwritten) ::
          (.rename (path.withExtension "tmp") path, .unmoved (path.withExtension "tmp") path) ::
          last ∧
      ∀ call ∈ last, ∃ path, call.1 = .openDirectory path := by
  unfold saveCalls
  cases path.parent? with
  | none => exact ⟨[], rfl, nofun⟩
  | some parent => exact ⟨_, rfl, List.forall_mem_singleton.2 ⟨parent, rfl⟩⟩

/-- Once a draft holds the new content, it is moved as a whole or not at all. -/
lemma Whole.moved {filled : FileTree} {last calls : List (FileCall × FileError)} {error : FileError}
    (whole : Whole tree path content filled) (made : filled.filePlace? draft = some place)
    (there : filled.node? place = some (.file content))
    (opens : ∀ call ∈ last, ∃ path, call.1 = .openDirectory path)
    (first : calls <+: (.rename draft path, error) :: last) :
    Whole tree path content (filled.performAll calls).2 := by
  rcases List.prefix_cons_iff.1 first with rfl | ⟨calls, rfl, among⟩
  · exact whole
  rw [performAll]
  cases moved : filled.perform (.rename draft path) with
  | none => exact whole
  | some renamed =>
    simp only
    rw [performAll_opens fun call mem => opens call (among.subset mem)]
    exact .inr (read?_of_rename made there moved)

/-- Before that, only the first call may have been carried out; it makes a file empty that is its own
draft. -/
lemma whole_of_prefix (tree : FileTree) (path : FilePath) (content : ByteArray)
    {calls : List (FileCall × FileError)} (first : calls <+: saveCalls path content) :
    Whole tree path content (tree.performAll calls).2 ∨
      path.withExtension "tmp" = path ∧ calls.length = 1 ∧
        (tree.performAll calls).2.read? path = some ByteArray.empty := by
  obtain ⟨last, are, opens⟩ := exists_saveCalls path content
  rw [are] at first
  rcases List.prefix_cons_iff.1 first with rfl | ⟨calls, rfl, second⟩
  · exact .inl (.inl rfl)
  rw [performAll]
  cases created : tree.perform (.create (path.withExtension "tmp")) with
  | none => exact .inl (.inl rfl)
  | some made =>
    obtain ⟨place, filled, is, create, written, write⟩ := exists_of_create content created
    simp only
    rcases List.prefix_cons_iff.1 second with rfl | ⟨calls, rfl, third⟩
    · rcases found?_of_draft is create with same | ⟨own, empty⟩
      · exact .inl (.inl same)
      · exact .inr ⟨own, rfl, empty⟩
    · have whole : Whole tree path content filled := (found?_of_draft is write).imp id And.right
      have is' := (filePlace?_eq write.directories (path.withExtension "tmp")).trans is
      have there : filled.node? place = some (.file content) := by rw [write.nodes, if_pos rfl]
      rw [performAll, written]
      exact .inl (whole.moved is' there opens third)

/-- While a file is saved, after any of the calls that do it and also when one of them fails, its path
finds what it has found before or the whole new content. The exception is a file that is its own draft:
it is empty between the first call and the second one. -/
theorem save_never_partial (tree : FileTree) (path : FilePath) (content : ByteArray) :
    (∀ calls, calls <+: saveCalls path content →
      Whole tree path content (tree.performAll calls).2 ∨
        path.withExtension "tmp" = path ∧ calls.length = 1 ∧
          (tree.performAll calls).2.read? path = some ByteArray.empty) ∧
    Whole tree path content (tree.save path content).2 := by
  refine ⟨fun calls => whole_of_prefix tree path content, ?_⟩
  rcases whole_of_prefix tree path content List.prefix_rfl with whole | ⟨-, single, -⟩
  · exact whole
  · obtain ⟨last, are, -⟩ := exists_saveCalls path content
    rw [are] at single
    cases single

/-- A tree with a single file in its top directory. -/
def single (name : String) (content : ByteArray) : FileTree :=
  ⟨([name], .file content) :: FileTree.empty.nodes⟩

/-- A file that is its own draft. While it is saved again it is empty for a moment, which is neither what
it held before nor what is saved. -/
theorem save_empties_own_draft :
    let tree := single "level.tmp" ⟨#[1]⟩
    let after := (tree.performAll ((saveCalls ⟨"level.tmp"⟩ ⟨#[2]⟩).take 1)).2
    tree.read? ⟨"level.tmp"⟩ = some ⟨#[1]⟩ ∧ after.read? ⟨"level.tmp"⟩ = some ByteArray.empty ∧
      ¬ Whole tree ⟨"level.tmp"⟩ ⟨#[2]⟩ after := by
  have read : ∀ content, (single "level.tmp" content).read? ⟨"level.tmp"⟩ = some content := by
    intro content
    with_unfolding_all rfl
  have emptied : ∀ old new, ((single "level.tmp" old).performAll
      ((saveCalls ⟨"level.tmp"⟩ new).take 1)).2 = single "level.tmp" ByteArray.empty := by
    intro old new
    with_unfolding_all rfl
  intro tree after
  have before : tree.read? ⟨"level.tmp"⟩ = some ⟨#[1]⟩ := read _
  have between : after.read? ⟨"level.tmp"⟩ = some ByteArray.empty := by
    simp only [after, tree, emptied, read]
  refine ⟨before, between, ?_⟩
  rintro (same | new)
  · rw [read?_eq_some_iff.1 before, read?_eq_some_iff.1 between] at same
    cases same
  · rw [between] at new
    cases new

/-! ## Other files -/

/-- A save that succeeds touches its file and the draft only: the file reads as what was saved, nothing is
found any more where the draft was, and every other path finds what it has found before. -/
theorem save_spares_others (saved : tree.save path content = (.ok (), tree')) :
    tree'.read? path = some content ∧
    (path.withExtension "tmp" ≠ path →
      tree.locate? (path.withExtension "tmp") ≠ tree.locate? path) ∧
    ∀ other, tree.locate? other ≠ tree.locate? path →
      (tree.locate? other = tree.locate? (path.withExtension "tmp") →
        tree'.found? other = none) ∧
      (tree.locate? other ≠ tree.locate? (path.withExtension "tmp") →
        tree'.found? other = tree.found? other) := by
  obtain ⟨origin, place, source, target, directories, nodes⟩ := exists_of_save saved
  obtain ⟨located, names, -⟩ := of_filePlace? target
  obtain ⟨drafted, -⟩ := of_filePlace? source
  refine ⟨read?_of_save saved, fun apart meets => ?_, fun other elsewhere => ⟨fun draft => ?_,
    fun undrafted => ?_⟩⟩
  · rw [drafted, located] at meets
    cases meets
    exact apart (eq_of_draft_meets (by decide) source located names)
  · rw [located] at elsewhere
    rw [drafted] at draft
    have gone : tree'.node? origin = none := by
      rw [nodes, if_neg, if_pos rfl]
      rintro rfl
      exact elsewhere draft
    unfold found?
    rw [locate?_eq directories, draft, Option.bind_some, gone]
  · refine found?_congr directories fun place' leads => ?_
    rw [leads, located] at elsewhere
    rw [leads, drafted] at undrafted
    rw [nodes, if_neg (mt (congrArg some) elsewhere), if_neg (mt (congrArg some) undrafted)]

/-- A file beside the one that is saved is found as it was. -/
theorem save_spares_others_notes :
    ∃ tree', (single "notes.txt" ⟨#[1]⟩).save ⟨"level.json"⟩ ⟨#[2]⟩ = (.ok (), tree') ∧
      tree'.read? ⟨"level.json"⟩ = some ⟨#[2]⟩ ∧
      tree'.found? ⟨"level.tmp"⟩ = none ∧
      tree'.found? ⟨"notes.txt"⟩ = (single "notes.txt" ⟨#[1]⟩).found? ⟨"notes.txt"⟩ := by
  have saved : ∀ note content, (single "notes.txt" note).save ⟨"level.json"⟩ content =
      (.ok (), ⟨(["level.json"], .file content) :: (single "notes.txt" note).nodes⟩) := by
    intro note content
    with_unfolding_all rfl
  have places : ∀ note, (single "notes.txt" note).locate? ⟨"level.json"⟩ = some ["level.json"] ∧
      (single "notes.txt" note).locate? ⟨"level.tmp"⟩ = some ["level.tmp"] ∧
      (single "notes.txt" note).locate? ⟨"notes.txt"⟩ = some ["notes.txt"] := by
    intro note
    refine ⟨?_, ?_, ?_⟩ <;> with_unfolding_all rfl
  have draft : FilePath.withExtension ⟨"level.json"⟩ "tmp" = ⟨"level.tmp"⟩ := by
    with_unfolding_all rfl
  obtain ⟨target, beside, other⟩ := places ⟨#[1]⟩
  obtain ⟨reads, -, spares⟩ := save_spares_others (saved ⟨#[1]⟩ ⟨#[2]⟩)
  rw [draft, target, beside] at spares
  refine ⟨_, saved _ _, reads, (spares _ ?_).1 beside, (spares _ ?_).2 ?_⟩
  · rw [beside]
    decide
  · rw [other]
    decide
  · rw [other]
    decide

/-- The file that was where the draft is made is lost when another one is saved. -/
theorem save_takes_draft :
    let tree := single "level.tmp" ⟨#[1]⟩
    tree.locate? ⟨"level.tmp"⟩ ≠ tree.locate? ⟨"level.json"⟩ ∧
      tree.read? ⟨"level.tmp"⟩ = some ⟨#[1]⟩ ∧
      ∃ tree', tree.save ⟨"level.json"⟩ ⟨#[2]⟩ = (.ok (), tree') ∧
        tree'.found? ⟨"level.tmp"⟩ = none := by
  have places : ∀ content,
      (single "level.tmp" content).locate? ⟨"level.tmp"⟩ = some ["level.tmp"] ∧
        (single "level.tmp" content).locate? ⟨"level.json"⟩ = some ["level.json"] ∧
        (single "level.tmp" content).read? ⟨"level.tmp"⟩ = some content := by
    intro content
    refine ⟨?_, ?_, ?_⟩ <;> with_unfolding_all rfl
  have saved : ∀ old new, (single "level.tmp" old).save ⟨"level.json"⟩ new =
      (.ok (), single "level.json" new) := by
    intro old new
    with_unfolding_all rfl
  have lost : ∀ content, (single "level.json" content).found? ⟨"level.tmp"⟩ = none := by
    intro content
    with_unfolding_all rfl
  intro tree
  obtain ⟨own, other, read⟩ := places ⟨#[1]⟩
  refine ⟨?_, read, _, saved _ _, lost _⟩
  rw [own, other]
  decide

end FileTree

end BlockPuzzle
