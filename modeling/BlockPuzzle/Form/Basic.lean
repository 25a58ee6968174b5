/-!
# Forms

Scripts are written as parenthesised lists. A form is one item of such a text: a name, a quoted text,
a whole number, a truth value, or a list of forms.
-/

namespace BlockPuzzle

/-- One item of a script text. -/
inductive Form where
  | symbol (name : String)
  | text (value : String)
  | integer (value : Int)
  | boolean (value : Bool)
  | list (items : List Form)

namespace Form

/-- The name that a list starts with, if it starts with one. -/
def head? : Form → Option String
  | list (symbol name :: _) => some name
  | _ => none

/-- The text of a form that may stand for a name: a symbol or a quoted text. -/
def name? : Form → Option String
  | symbol name => some name
  | text value => some value
  | _ => none

/-- The name a form gives to the whole script, if it is a list `(program NAME …)`. -/
def scriptName? : Form → Option String
  | list (symbol "program" :: second :: _) => second.name?
  | _ => none

end Form

/-- The name of a script: the first one that a form gives, or `anonymous`. -/
def scriptName (forms : List Form) : String :=
  (forms.findSome? Form.scriptName?).getD "anonymous"

end BlockPuzzle
