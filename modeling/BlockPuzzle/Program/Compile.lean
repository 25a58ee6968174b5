import BlockPuzzle.Form.Reader
import BlockPuzzle.Program.Build

/-!
# Compiling a script

A script is compiled by reading its forms and building a program from them, under the name that the
forms give it.
-/

namespace BlockPuzzle

/-- Why a script does not compile. -/
inductive ScriptError where
  | unreadable (error : ReadError)
  | invalid (error : BuildError)
  deriving DecidableEq

/-- The words for a script that does not compile. -/
def ScriptError.message : ScriptError → String
  | unreadable error => "invalid script syntax: " ++ error.message
  | invalid error => "script validation failed: " ++ error.message

/-- Builds a program from forms. -/
def Program.build (name : String) (forms : List Form) : Except ScriptError Program :=
  (Program.ofForms name forms).mapError .invalid

/-- Compiles a script text. -/
def Program.compile (source : String) : Except ScriptError Program :=
  match Form.readAll source with
  | .ok forms => Program.build (scriptName forms) forms
  | .error e => .error (.unreadable e)

end BlockPuzzle
