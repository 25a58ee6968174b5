import BlockPuzzle.Program.Basic

/-!
# The journal of an attempt

Every command and every look at the surroundings leaves one entry with the block it came from.
Entries are added at the back while a program runs and taken from the front while it is replayed.
`Journal.toList` lists what is left, oldest first.
-/

namespace BlockPuzzle

/-- What the agent did. -/
inductive Action where
  | move (source target : Point)
  | rotateLeft (source target : Bearing)
  | rotateRight (source target : Bearing)
  | sense (toward : Bearing) (clear : Bool)
  | bump (place : Point) (toward : Bearing)
  | finish (place : Point)
  deriving DecidableEq

/-- The word for a kind of action. -/
def Action.label : Action → String
  | move .. => "move"
  | rotateLeft .. => "rotate-left"
  | rotateRight .. => "rotate-right"
  | sense .. => "sense"
  | bump .. => "bump"
  | finish .. => "finish"

/-- The pose after an action, given the pose before it. -/
def Action.apply (action : Action) (pose : Pose) : Pose :=
  match action with
  | move _ target => { pose with position := target }
  | rotateLeft _ target => { pose with facing := target }
  | rotateRight _ target => { pose with facing := target }
  | sense .. => pose
  | bump .. => pose
  | finish .. => pose

/-- An action and the block it came from. -/
structure Entry where
  block : BlockId
  action : Action
  deriving DecidableEq

/-- A queue of entries: the front, oldest first, and the back, newest first. -/
structure Journal where
  front : List Entry
  back : List Entry

namespace Journal

/-- The journal without entries. -/
def empty : Journal :=
  ⟨[], []⟩

/-- The entries, oldest first. -/
def toList (journal : Journal) : List Entry :=
  journal.front ++ journal.back.reverse

/-- Adds an entry behind all others. -/
def push (journal : Journal) (entry : Entry) : Journal :=
  { journal with back := entry :: journal.back }

/-- Takes the oldest entry. -/
def pop? (journal : Journal) : Option (Entry × Journal) :=
  match journal.front with
  | entry :: front => some (entry, { journal with front })
  | [] =>
    match journal.back.reverse with
    | entry :: front => some (entry, ⟨front, []⟩)
    | [] => none

/-- The oldest entry. -/
def first? (journal : Journal) : Option Entry :=
  journal.pop?.map Prod.fst

/-- Whether no entry is left. -/
def isEmpty (journal : Journal) : Bool :=
  journal.front.isEmpty && journal.back.isEmpty

/-- Number of entries left. -/
def size (journal : Journal) : Nat :=
  journal.front.length + journal.back.length

/-- The empty journal has no entries. -/
@[simp] theorem toList_empty : empty.toList = [] := rfl

/-- A new entry comes behind all others. -/
@[simp] theorem toList_push (journal : Journal) (entry : Entry) :
    (journal.push entry).toList = journal.toList ++ [entry] := by
  simp [push, toList]

/-- What is taken out is the oldest entry, and the others stay in order. -/
theorem toList_of_pop? {journal rest : Journal} {entry : Entry}
    (h : journal.pop? = some (entry, rest)) : journal.toList = entry :: rest.toList := by
  unfold pop? at h
  split at h
  · next front hfront => cases h; simp [toList, hfront]
  · next hfront =>
    split at h
    · next front hback => cases h; simp [toList, hfront, hback]
    · cases h

/-- Something can be taken out just if there is an entry. -/
theorem pop?_eq_none_iff {journal : Journal} : journal.pop? = none ↔ journal.toList = [] := by
  unfold pop?
  split
  · next hfront => simp [toList, hfront]
  · next hfront =>
    split
    · next hback => simp [toList, hfront, hback]
    · next hback => simp [toList, hfront, hback]

/-- The size that is kept is the number of entries. -/
theorem size_eq_length (journal : Journal) : journal.size = journal.toList.length := by
  simp [size, toList]

/-- A journal is empty just if it has no entries. -/
theorem isEmpty_iff {journal : Journal} : journal.isEmpty = true ↔ journal.toList = [] := by
  simp [isEmpty, toList]

/-- Taking out an entry leaves one less. -/
theorem size_of_pop? {journal rest : Journal} {entry : Entry}
    (h : journal.pop? = some (entry, rest)) : journal.size = rest.size + 1 := by
  simp [size_eq_length, toList_of_pop? h]

end Journal

end BlockPuzzle
