import Strongbox.CommandLine.Usage
import Strongbox.Settings
import Strongbox.Text.Utf8

/-!
The report on settings that were refused: how many issues there are, and for each of them the
field, the issue with the text that was given, and where it is explained.
-/

namespace Strongbox.CommandLine

/-- The longest text, in octets of UTF-8, that a report gives in full. -/
def excerptLimit : Nat := 50

/-- The longest start with at most so many octets. -/
def start : Nat → List Char → List Char
  | _, [] => []
  | room, c :: rest => if c.utf8Size ≤ room then c :: start (room - c.utf8Size) rest else []

/-- A text that is too long is given by its start and its end. -/
def excerpt (s : String) : String :=
  if s.utf8ByteSize ≤ excerptLimit then s
  else
    let front := start 25 s.toList
    let back := (start 24 s.toList.reverse).reverse
    String.ofList front ++ "..." ++ String.ofList back

def reportError (input : String) (e : SettingError) : List String :=
  let given := excerpt (Quoted.text input)
  let label := e.issue.label
  [e.field.name,
    s!"  {e.issue.message} [type={label}, input_value={given}, input_type=str]",
    s!"    For further information visit https://errors.pydantic.dev/2.14/v/{label}"]

def reportErrors (environment : String → Option String) (errors : List SettingError) : String :=
  let count := errors.length
  let plural := if count = 1 then "" else "s"
  unlines (s!"{count} validation error{plural} for CryptoConfig" ::
    errors.flatMap fun e => reportError ((environment e.field.variableName).getD "") e)

end Strongbox.CommandLine
