import Strongbox.CommandLine.Arguments
import Strongbox.CommandLine.Report
import Strongbox.KeyStore
import Strongbox.Password

/-!
Running a command. The result is what is printed and the status; log records go to the error
stream as far as the configured level lets them through.
-/

namespace Strongbox

/-- The package by name, version and terms. -/
def packageName : String := "navigator_crypto"

def packageVersion : String := "0.1.0"

def packageTerms : String := "Apache-2.0"

namespace CommandLine

/-- How a run ends; one that is broken off ends the process at once. -/
structure Ending where
  status : Nat
  brokenOff : Bool
  output : String
  errors : String
deriving DecidableEq

/-- The world of a run and what it has printed. -/
structure Terminal where
  world : World
  output : String

abbrev Job := ExceptT Abort (StateM Terminal)

/-- An action on the world of a terminal. -/
def perform {α : Type} (a : Action α) : Job α :=
  ExceptT.mk fun t =>
    let (result, world) := StateT.run (ExceptT.run a) t.world
    (result, { t with world })

def print (line : String) : Job Unit :=
  modify fun t => { t with output := t.output ++ line ++ "\n" }

/-- The handler for the key at the configured path. Without a key the process gives up. -/
def openHandler (settings : Settings) : Action Handler := do
  let store ← KeyStore.make settings.secretPath true
  ExceptT.mk fun world =>
    let (result, custody) :=
      StateT.run (ExceptT.run (KeyStore.handler Handler.standardMarker {})) { store, world }
    (result, custody.world)

def quoteLine (title text : String) : String :=
  title ++ " = \"" ++ text ++ "\""

def showEncrypted (h : Handler) (text : String) : Job Unit := do
  print (quoteLine "text" text)
  let encrypted ← perform (h.encryptText (.text text)).inWorld
  print (quoteLine "encrypted text" encrypted)

def showDecrypted (h : Handler) (encrypted : String) : Job Unit := do
  print (quoteLine "encrypted text" encrypted)
  let plain ← perform (h.decryptText (.text encrypted)).inWorld
  print (quoteLine "text" plain.display)

variable {σ : Type} [ChoiceSource σ]

/-- A command that needs the key. -/
def execute (settings : Settings) (source : σ) (c : Command) : Job Unit := do
  let h ← perform (openHandler settings)
  match c with
  | .version => pure ()
  | .encrypt text => showEncrypted h text
  | .decrypt encrypted => showDecrypted h encrypted
  | .password length =>
    let size := length.getD settings.passwordLength
    match (Password.generate Password.standardAlphabet.toList size source).1 with
    | .error m => throw (.misuse m)
    | .ok password =>
      print "random password"
      showEncrypted h password

/-- The message of an abort that a run reports before it ends. -/
def reported? : Abort → Option String
  | .failure f => some f.text
  | .misuse m => if m.isWrongValue then some m.message else none
  | _ => none

/-- The records of a run that its settings let through, one on a line. -/
def logLines (level : Level) (records : List LogRecord) : String :=
  unlines ((records.filter (·.passes level)).map LogRecord.line)

/-- Runs a command under settings. What is logged during the run is kept apart. -/
def runCommand (settings : Settings) (source : σ) (c : Command) (w : World) :
    Except Abort Ending × World :=
  let quiet := { w with ambient := { w.ambient with log := [] } }
  let (result, t) := StateT.run (ExceptT.run (execute settings source c)) ⟨quiet, ""⟩
  let errors := logLines settings.logLevel t.world.ambient.log
  let after := { t.world with ambient := { t.world.ambient with log := w.ambient.log } }
  match result with
  | .ok () => (.ok ⟨0, false, t.output, errors⟩, after)
  | .error (.exit _) => (.ok ⟨1, true, t.output, errors⟩, after)
  | .error a =>
    match reported? a with
    | some message => (.ok ⟨1, false, t.output ++ message ++ "\n", errors⟩, after)
    | none => (.error a, after)

/-- Runs an argument vector. Only a command that needs the key reads the settings. -/
def run (arguments : List String) (environment : String → Option String) (source : σ) (w : World) :
    Except Abort Ending × World :=
  match read arguments with
  | .refused t e => (.ok ⟨2, true, "", e.report t⟩, w)
  | .help t => (.ok ⟨0, true, t.help, ""⟩, w)
  | .nothing => (.ok ⟨0, false, Topic.program.help, ""⟩, w)
  | .run .version => (.ok ⟨0, false, packageName ++ "/" ++ packageVersion ++ "\n", ""⟩, w)
  | .run c =>
    match Settings.ofVariables environment with
    | .error errors => (.ok ⟨1, false, reportErrors environment errors, ""⟩, w)
    | .ok settings => runCommand settings source c w

end CommandLine

end Strongbox
