import Strongbox.Json.Parser
import Strongbox.Properties
import Strongbox.World

/-!
Properties that are kept in a JSON document. The members of the object are the properties, in
their order.
-/

namespace Strongbox

/-- The properties in a document. Messages name the document as the caller does. -/
def Source.ofDocument (path : String) (document : Bytes) : Except Misuse Source :=
  match Json.parse? document with
  | none => .error .malformedDocument
  | some (.dict entries) => .ok (Dictionary.ofList (Value.textEntries entries))
  | some v => .error (.notAnObject path v.typeName)

namespace Properties

/-- Reads a file whole. -/
def readDocument (path : Path) : Action Bytes := do
  if path.hasNul then throw (.misuse .nulInPath)
  match (← get).files.readFile (toString path) with
  | .ok content => return content
  | .error code => throw (.system (FileTree.errorAt path code))

def load (path : String) : Action Source := do
  let document ← readDocument (.ofString path)
  match Source.ofDocument path document with
  | .ok source => return source
  | .error m => throw (.misuse m)

end Properties

end Strongbox
