import MarkdownWeave.Failure
import MarkdownWeave.Text.Blank

/-!
# Variables on the command line

## Main definitions

* `Variable.parse` — a variable that is given as its name, an equals sign and its value.
-/

namespace MarkdownWeave

namespace Variable

/-- The name and the value of a variable that is given as one text.  The first equals sign ends the
name, which is trimmed and must not be empty; the value is kept as it is. -/
def parse (input : Text) : Except Failure (Text × Text) :=
  match Text.splitAt? '=' input with
  | none => .error (.invalidVariable input "Expected format: key=value")
  | some (name, value) =>
    if (Text.trim name).isEmpty then
      .error (.invalidVariable input "Variable name cannot be empty")
    else .ok (Text.trim name, value)

/-- The variables that some texts give, in order. -/
def parseAll (inputs : List Text) : Except Failure (List (Text × Text)) := inputs.mapM parse

end Variable

end MarkdownWeave
