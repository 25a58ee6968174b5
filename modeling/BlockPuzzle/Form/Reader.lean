import BlockPuzzle.Form.Basic
import BlockPuzzle.Form.Token

/-!
# Reading forms

`Form.readAll` reads a script text as a list of forms. The tokens are taken one by one; the lists
that are still open wait on a stack, so the first faulty token decides the error.
-/

namespace BlockPuzzle

/-- Lists may not be nested deeper than this. -/
def maxNesting : Nat := 256

/-- Value of a run of decimal digits. -/
def digitsValue (digits : List Char) : Nat :=
  digits.foldl (fun n c => 10 * n + (c.toNat - '0'.toNat)) 0

/-- Splits a sign off the front of a number; `true` means minus. -/
def splitSign : List Char → Bool × List Char
  | '-' :: cs => (true, cs)
  | '+' :: cs => (false, cs)
  | cs => (false, cs)

/-- Whether a text is a sign, or none, and at least one decimal digit. -/
def isIntegerText (cs : List Char) : Bool :=
  let digits := (splitSign cs).2
  !digits.isEmpty && digits.all Char.isDigit

/-- Value of a text that `isIntegerText` accepts. -/
def integerValue (cs : List Char) : Int :=
  let (minus, digits) := splitSign cs
  if minus then -(digitsValue digits : Int) else digitsValue digits

/-- Whether a number fits a signed word of 64 bits. -/
def fitsWord (n : Int) : Bool :=
  -9223372036854775808 ≤ n && n ≤ 9223372036854775807

/-- The form that an atom stands for. -/
def Form.ofAtom (offset : Nat) (name : String) : Except ReadError Form :=
  if name == "true" then .ok (.boolean true)
  else if name == "false" then .ok (.boolean false)
  else if isIntegerText name.toList then
    let n := integerValue name.toList
    if fitsWord n then .ok (.integer n) else .error (.integerRange offset)
  else .ok (.symbol name)

/-- What has been read so far: the open lists, innermost first, each with the offset of its
parenthesis, and the finished forms. Items are kept newest first. -/
structure Reading where
  unclosed : List (Nat × List Form)
  finished : List Form

namespace Reading

/-- Nothing has been read. -/
def empty : Reading :=
  ⟨[], []⟩

/-- Puts a form behind the last one of the innermost open list. -/
def add (reading : Reading) (form : Form) : Reading :=
  match reading.unclosed with
  | [] => { reading with finished := form :: reading.finished }
  | (offset, items) :: outer => { reading with unclosed := (offset, form :: items) :: outer }

/-- Takes in one token. -/
def step (reading : Reading) (offset : Nat) : Token → Except ReadError Reading
  | .opening =>
    if reading.unclosed.length ≥ maxNesting then .error (.tooDeep offset)
    else .ok { reading with unclosed := (offset, []) :: reading.unclosed }
  | .closing =>
    match reading.unclosed with
    | [] => .error (.unbalanced offset)
    | (_, items) :: outer =>
      .ok (Reading.add { reading with unclosed := outer } (.list items.reverse))
  | .text value => .ok (reading.add (.text value))
  | .atom name => (Form.ofAtom offset name).map reading.add

/-- Takes in a list of tokens, up to the first error. -/
def steps (reading : Reading) : List (Except ReadError (Nat × Token)) → Except ReadError Reading
  | [] => .ok reading
  | .error e :: _ => .error e
  | .ok (offset, token) :: tokens =>
    match reading.step offset token with
    | .ok next => next.steps tokens
    | .error e => .error e

/-- Takes in all tokens ahead of a cursor, up to the first error. -/
def run (reading : Reading) (cursor : Cursor) : Except ReadError Reading :=
  match _h : cursor.next? with
  | none => .ok reading
  | some (.error e, _) => .error e
  | some (.ok (offset, token), after) =>
    match reading.step offset token with
    | .ok next => next.run after
    | .error e => .error e
termination_by cursor.rest.length
decreasing_by exact Cursor.length_next?_lt _h

/-- Reading goes token by token. -/
theorem run_eq_steps (reading : Reading) (cursor : Cursor) :
    reading.run cursor = reading.steps cursor.tokens := by
  fun_induction run reading cursor with
  | case1 reading cursor h => rw [Cursor.tokens]; split <;> simp_all [steps]
  | case2 reading cursor e after h => rw [Cursor.tokens]; split <;> simp_all [steps]
  | case3 reading cursor offset token after h next hstep ih =>
    rw [Cursor.tokens]; split <;> simp_all [steps]
  | case4 reading cursor offset token after h e hstep =>
    rw [Cursor.tokens]; split <;> simp_all [steps]

/-- The forms, if no list is open. -/
def finish (reading : Reading) : Except ReadError (List Form) :=
  match reading.unclosed with
  | [] => .ok reading.finished.reverse
  | (offset, _) :: _ => .error (.unclosedList offset)

end Reading

/-- Reads a whole script text. -/
def Form.readAll (source : String) : Except ReadError (List Form) :=
  match Reading.empty.run (Cursor.start source) with
  | .ok reading => reading.finish
  | .error e => .error e

end BlockPuzzle
