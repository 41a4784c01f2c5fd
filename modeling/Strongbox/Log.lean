/-!
Log levels and log records.
-/

namespace Strongbox

inductive Level
  | critical
  | error
  | warning
  | info
  | debug
  | notset
deriving DecidableEq

namespace Level

def all : List Level := [critical, error, warning, info, debug, notset]

def name : Level → String
  | critical => "CRITICAL"
  | error => "ERROR"
  | warning => "WARNING"
  | info => "INFO"
  | debug => "DEBUG"
  | notset => "NOTSET"

def severity : Level → Nat
  | critical => 50
  | error => 40
  | warning => 30
  | info => 20
  | debug => 10
  | notset => 0

def ofName? (name : String) : Option Level :=
  all.find? fun l => l.name = name

theorem ofName?_name (l : Level) : ofName? l.name = some l := by
  cases l <;> decide +kernel

end Level

structure LogRecord where
  level : Level
  message : String
deriving DecidableEq

namespace LogRecord

/-- The name under which the library logs. -/
def source : String := "navigator.crypto"

def line (r : LogRecord) : String :=
  s!"{r.level.name}:{source}:{r.message}"

/-- A threshold lets through the records of its own severity and above. -/
def passes (threshold : Level) (r : LogRecord) : Bool :=
  threshold.severity ≤ r.level.severity

end LogRecord

end Strongbox
