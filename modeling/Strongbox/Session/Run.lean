import Strongbox.Session.Files
import Strongbox.Session.Secrets
import Strongbox.Session.Stores

/-!
Running a session step by step. A step that comes to nothing leaves what it did before it stopped,
and the session goes on.
-/

namespace Strongbox.Session

/-- A reply that cannot be given a name. -/
def unnamed (r : Reply) : Reply × Option Held :=
  (r, none)

def replyValue (v : Value) : Work (Reply × Option Held) := do
  return (.value (← shown v), some (← newValue v))

/-- The reply with a value that an argument may have passed through unchanged. -/
def replyPassed (passed : Bool) (argument : Term) (v : Value) : Work (Reply × Option Held) := do
  if passed then return (.value (← shown v), some (← sameValue argument v)) else replyValue v

/-- Among the replies to file calls, values can be given a name. -/
def replyFile : Reply → Work (Reply × Option Held)
  | .value v => replyValue v
  | r => return unnamed r

def replyHandler (i : Nat) (h : Handler) : Reply × Option Held :=
  (.handler h, some (.handler i))

def replySettings : Except (List SettingError) Settings → Reply
  | .ok settings => .settings settings
  | .error errors => .refusedSettings errors

/-- A variable has a name without an equals sign, and no NUL is in its name or value. -/
def checkVariable (name value : String) : Action Unit := do
  if hasNul name || hasNul value || name.toList.contains '=' then throw (.misuse .unfitVariable)
  if name.isEmpty then throw (.system { code := .invalid })

/-- An environment to look variables up in. -/
def setUp (environment : Environment) : Action (String → Option String) := do
  environment.forM fun (name, value) => checkVariable name value
  return fun name => environment.lookup name

def loadSettings (environment : Environment) : Action Reply := do
  let given ← setUp environment
  ExceptT.mk fun w =>
    let (result, ambient) := StateT.run (Settings.load given) w.ambient
    (.ok (replySettings result), { w with ambient })

def makeSettings (fields : List (String × Term)) : Work Reply := do
  let given ← resolveEntries fields
  return replySettings (Settings.ofFields fun field => given.find? field.name)

def makeFailure (cls : FailureClass) (arguments : List Term) : Work Failure :=
  return .raise cls (← resolveAll arguments)

def showFailure (f : Failure) : Work Reply := do
  let _ ← f.arguments.mapM shown
  return .failure f

def showOutcome (o : Outcome) : Work Reply := do
  return .outcome { o with value := ← shown o.value }

def makeOutcome (value : Term) : Option (FailureClass × List Term) → Work Outcome
  | none => return { value := ← resolve value }
  | some (cls, arguments) => do
    let value ← resolve value
    return { value, failure := some (← makeFailure cls arguments) }

def runCommandLine (arguments : List String) (environment : Environment) (seed : Int) :
    Action Reply := do
  let given ← setUp environment
  ExceptT.mk fun w =>
    let (result, w) := CommandLine.run arguments given (Twister.ofSeed seed.natAbs) w
    (result.map .ending, w)

/-- A handler hands back unmarked values that it is to decrypt, and needs its cipher for the
rest. -/
def convertBy (i : Nat) (c : Conversion) (argument : Term) : Work (Reply × Option Held) := do
  let h ← handlerAt i
  let v ← resolve argument
  let passed := c = .decryptText && !h.isMarked v
  if !passed then requireCipher i
  replyPassed passed argument (← (h.convert c v).inSession)

/-- Asks a cipher. A handler answers in its place where texts are concerned. -/
def askCipher (u : CipherUse) (c : Conversion) (argument : Term) :
    Work (Reply × Option Held) := do
  match (← get).handlerNamed? u.choice with
  | some i =>
    match c with
    | .encryptText | .decryptText => convertBy i c argument
    | _ => refuse .incapable
  | none => do
    let cipher ← cipherOf u
    replyValue (← (cipher.convert c (← resolve argument)).inSession)

def attemptBy (i : Nat) (c : Conversion) (argument : Term) : Work Reply := do
  let h ← handlerAt i
  let v ← resolve argument
  if c ≠ .decryptText || h.isMarked v then requireCipher i
  showOutcome (← (h.attempt c v).inSession)

def storeAttribute (i : Nat) (argument : Term) : Work (Reply × Option Held) := do
  let h ← handlerAt i
  let v ← resolve argument
  match v with
  | .null => replyValue .null
  | v => do
    requireCipher i
    replyValue (← (Attribute.store h v).inSession)

def restoreAttribute (i : Nat) (argument : Term) : Work (Reply × Option Held) := do
  let h ← handlerAt i
  let v ← resolve argument
  let passed := !h.isMarked v
  if !passed then requireCipher i
  replyPassed passed argument (← (Attribute.restore h v).inSession)

/-- The reply to an operation, and what a name can be given to. -/
def perform : Operation → Work (Reply × Option Held)
  | .importKey secret => do
    let (r, i) ← importKey secret
    return (r, some (.cipher i))
  | .useCipher u c argument => askCipher u c argument
  | .makeHandler u => do
    let (i, h) ← numberedHandler u
    return replyHandler i h
  | .isMarked u argument => do
    let (_, h) ← numberedHandler u
    replyValue (.bool (h.isMarked (← resolve argument)))
  | .convert u c argument => do convertBy (← chooseHandler u) c argument
  | .attempt u c argument => do return unnamed (← attemptBy (← chooseHandler u) c argument)
  | .storeAttribute u argument => do storeAttribute (← chooseHandler u) argument
  | .restoreAttribute u argument => do restoreAttribute (← chooseHandler u) argument
  | .decryptProperties u sources => do replyValue (← decryptProperties u sources)
  | .viewProperties u sources queries => return unnamed (← viewProperties u sources queries)
  | .loadDocument d => do replyValue (.ofEntries (← loadDocument d).entries)
  | .viewDocument d u queries => return unnamed (← viewDocument d u queries)
  | .loadSettings environment => return unnamed (← (loadSettings environment).inSession)
  | .makeSettings fields => return unnamed (← makeSettings fields)
  | .makeFailure cls arguments => return unnamed (← showFailure (← makeFailure cls arguments))
  | .makeOutcome value failure => return unnamed (← showOutcome (← makeOutcome value failure))
  | .commandLine arguments environment seed =>
    return unnamed (← (runCommandLine arguments environment seed).inSession)
  | .file call => do replyFile (← (performFileCall call).inSession)
  | .keyFile path fatal faults => do
    replyValue (.ofBytes (← (readKeyFile path fatal faults).inSession))
  | .makeStore path fatal => do
    let (store, i) ← makeStore path fatal
    return (.store store, some (.store i))
  | .askStore store call faults => do
    let (v, held) ← askStore (← storeNamed store) faults call
    return (.value v, some held)
  | .sameLock a b => do replyValue (.bool (← sameLock a b))
  | .handlerOfStore store faults => do
    let i ← handlerOfStore (← storeNamed store) faults
    return replyHandler i (← handlerAt i)
  | .makeLazy store => return (.lazy, some (.lazy (← makeLazy store)))
  | .forceLazy name faults => do
    let i ← forceLazy (← lazyNamed name) faults
    return replyHandler i (← handlerAt i)
  | .same a b => do replyValue (.bool (← same a b))
  | .concurrent names callers => return unnamed (← concurrent names callers)

/-- An operation, and the name that its result is to have. -/
structure Step where
  operation : Operation
  name : Option String := none

def keep (name : Option String) (held : Option Held) : Work Unit :=
  match name, held with
  | some name, some held => modify fun s => { s with names := AssocList.put name held s.names }
  | _, _ => return

def work (s : Step) : Work Reply := do
  let (reply, held) ← perform s.operation
  keep s.name held
  return reply

/-- What a step led to, with the records it logged and the entropy it drew. -/
structure Report where
  result : Except Stop Reply
  log : List LogRecord
  drawn : Nat

def clearLog (s : Session) : Session :=
  { s with world := { s.world with ambient := { s.world.ambient with log := [] } } }

def step (session : Session) (s : Step) : Report × Session :=
  let (result, after) := StateT.run (ExceptT.run (work s)) session.clearLog
  let drawn := after.world.ambient.entropy.position - session.world.ambient.entropy.position
  ({ result, log := after.world.ambient.log, drawn }, after)

def run : List Step → Session → List Report × Session
  | [], session => ([], session)
  | s :: rest, session =>
    let (report, session) := session.step s
    let (reports, session) := run rest session
    (report :: reports, session)

/-- A session that starts with nothing but the entropy it will draw. -/
def start (entropy : Bytes) (generator : Nat → UInt8) (workingDirectory : Location) : Session where
  world :=
    { ambient := { entropy := .ofBytes entropy, generator := ⟨generator, []⟩, log := [] }
      files := .empty workingDirectory }

end Strongbox.Session
