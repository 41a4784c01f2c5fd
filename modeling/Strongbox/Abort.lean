import Strongbox.Failure

/-!
Everything that can end an operation early: the library's own failures, faults from outside that
it lets through, misuse by the caller, and trouble with the system.
-/

namespace Strongbox

/-- An argument that an operation cannot work with. -/
inductive Misuse
  | notBytesLike (typeName : String)
  | notText
  /-- A text that no octets encode, since surrogates are in it. -/
  | unencodable
  | notEncodedText
  | unsized
  /-- Something is asked for that a thing of this kind does not do. -/
  | incapable
  /-- A value that cannot be shown, because a thing that is no data is in it. -/
  | notData
  | tooDeep
  | notOctets
  | octetOutOfRange
  | negativeSize
  | sizeTooLarge
  | outOfMemory
  | negativeLength (length : Int)
  | emptyAlphabet
  | nulInPath
  /-- A variable of an environment that cannot have this name or value. -/
  | unfitVariable
  | linkLoop
  | malformedDocument
  | notAnObject (path typeName : String)
  | missingKey (key : String)
deriving DecidableEq

namespace Misuse

def message : Misuse → String
  | notBytesLike t => s!"plaintext must be bytes-like, got {t}"
  | negativeLength n => s!"Password length cannot be negative: {n}"
  | notAnObject path t => s!"{path} must contain a JSON object, got {t}"
  | missingKey k => k
  | nulInPath => "embedded null byte"
  | _ => ""

/-- The argument has the right type and a value out of range. -/
def isWrongValue : Misuse → Bool
  | unencodable | octetOutOfRange | negativeSize | negativeLength _ | nulInPath | unfitVariable
  | malformedDocument | notAnObject _ _ => true
  | _ => false

end Misuse

inductive Abort
  | failure (f : Failure)
  /-- The process gives up with status 1. -/
  | exit (cause : Failure)
  | fault (f : Fault)
  | misuse (m : Misuse)
  | system (e : SystemError)

/-- How a fault ends an operation that lets it through: one of the library's own classes counts as
the library's own failure, wherever it comes from. -/
def Fault.abort (f : Fault) : Abort :=
  match f.nature with
  | .own cls message => .failure (.raise cls [.text message])
  | _ => .fault f

theorem Fault.abort_ne_misuse (f : Fault) (m : Misuse) : f.abort ≠ .misuse m := by
  unfold abort
  split <;> nofun

end Strongbox
