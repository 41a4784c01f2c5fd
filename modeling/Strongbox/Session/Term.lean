import Strongbox.Dictionary
import Strongbox.Value

/-!
Values as they are written down in a session: parts of them may be given by name.
-/

namespace Strongbox

inductive Term
  | literal (v : Value)
  | named (name : String)
  | list (items : List Term)
  | dict (entries : List (String × Term))

namespace Term

variable (named? : String → Option Value)

mutual

/-- The value that a term stands for, or the first name in it that stands for none. -/
def value : Term → Except String Value
  | literal v => .ok v
  | named name =>
    match named? name with
    | some v => .ok v
    | none => .error name
  | list items => return .list (← values items)
  | dict entries => return .ofEntries (Dictionary.ofList (← entryValues entries)).entries

def values : List Term → Except String (List Value)
  | [] => .ok []
  | t :: ts => return (← value t) :: (← values ts)

def entryValues : List (String × Term) → Except String (List (String × Value))
  | [] => .ok []
  | (k, t) :: rest => return (k, ← value t) :: (← entryValues rest)

end

end Term

end Strongbox
