import Strongbox.Text.Quoted
import Strongbox.Value

/-!
Values written out on one line, texts in quotation marks.
-/

namespace Strongbox.Value

/-- A value that holds no others. -/
def quotedPlain : Value → String
  | null => "None"
  | bool b => if b then "True" else "False"
  | int n => toString n
  | float x _ => x.text
  | text s => Quoted.text s
  | brokenText t => Quoted.broken t
  | bytes .fixed bs => Quoted.bytes bs
  | bytes .buffer bs => "bytearray(" ++ Quoted.buffer bs ++ ")"
  | bytes .view _ => "<memory>"
  | thing kind _ => "<" ++ kind.typeName ++ " object>"
  | list _ | dict _ => ""

mutual

def quoted : Value → String
  | list items => "[" ++ ", ".intercalate (quotedItems items) ++ "]"
  | dict entries => "\x7b" ++ ", ".intercalate (quotedEntries entries) ++ "\x7d"
  | v => quotedPlain v

def quotedItems : List Value → List String
  | [] => []
  | v :: vs => quoted v :: quotedItems vs

def quotedEntries : List (EntryKey × Value) → List String
  | [] => []
  | (k, v) :: rest => (quotedPlain k.value ++ ": " ++ quoted v) :: quotedEntries rest

end

/-- A text stands for itself, as far as it has characters, and everything else is written out. -/
def display : Value → String
  | text s => s
  | brokenText t => Quoted.displayed t
  | v => quoted v

/-- Several values in round brackets; a single one is followed by a comma. -/
def quotedTuple : List Value → String
  | [v] => "(" ++ quoted v ++ ",)"
  | vs => "(" ++ ", ".intercalate (quotedItems vs) ++ ")"

/-- Texts in square brackets. -/
def quotedNames (names : List String) : String :=
  "[" ++ ", ".intercalate (names.map Quoted.text) ++ "]"

end Strongbox.Value
