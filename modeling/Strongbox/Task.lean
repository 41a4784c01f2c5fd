import Strongbox.Abort
import Strongbox.Entropy
import Strongbox.Log

/-!
Operations that may draw entropy, write log records and end early. What was drawn and logged
before an early end stays drawn and logged.
-/

namespace Strongbox

/-- The random sources and the log. Fresh keys come from a generator of their own, and everything
else from the entropy stream. -/
structure Ambient where
  entropy : Entropy
  generator : Entropy
  log : List LogRecord

namespace Ambient

def record (a : Ambient) (level : Level) (message : String) : Ambient :=
  { a with log := a.log ++ [⟨level, message⟩] }

end Ambient

abbrev Task := ExceptT Abort (StateM Ambient)

namespace Task

def fail {α : Type} (f : Failure) : Task α :=
  throw (.failure f)

def reject {α : Type} (m : Misuse) : Task α :=
  throw (.misuse m)

def log (level : Level) (message : String) : Task Unit :=
  modify fun a => a.record level message

def draw (size : Nat) : Task Bytes :=
  modifyGet fun a =>
    let (bs, entropy) := a.entropy.draw size
    (bs, { a with entropy })

def generate (size : Nat) : Task Bytes :=
  modifyGet fun a =>
    let (bs, generator) := a.generator.draw size
    (bs, { a with generator })

end Task

end Strongbox
