import Strongbox.Task
import Strongbox.Value

/-!
Results of calls that do not raise the library's own failures but hand them over.
-/

namespace Strongbox

/-- A value, or a failure that takes precedence over it. -/
structure Outcome where
  value : Value
  failure : Option Failure := none

namespace Outcome

def isOk (o : Outcome) : Bool :=
  o.failure.isNone

def kind (o : Outcome) : Option FailureKind :=
  o.failure.map Failure.kind

def unwrap (o : Outcome) : Except Failure Value :=
  match o.failure with
  | some f => .error f
  | none => .ok o.value

/-- Only the library's own failures are handed over; every other abort passes through. -/
def of (t : Task Value) : Task Outcome :=
  tryCatch (return { value := ← t }) fun
    | .failure f => return { value := .null, failure := some f }
    | other => throw other

end Outcome

end Strongbox
