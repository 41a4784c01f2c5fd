import Strongbox.Key
import Strongbox.World

/-!
The key file: read if it is there, and otherwise made once with fresh random octets. The work is a
sequence of stages, each one atomic act on the world, so that several processes at work on one
path can be interleaved. Faults may strike at each of them.
-/

namespace Strongbox.KeyFile

/-- What breaks off the writing of a file: trouble with the system, or anything else. -/
inductive Interruption
  | system (e : SystemError)
  | foreign (f : Fault)

/-- The faults that strike one run, and the rival process that gets ahead of it. -/
structure Faults where
  parents : Option SystemError := none
  check : Option SystemError := none
  load : Option SystemError := none
  entropy : Option SystemError := none
  /-- The content of a file that another process creates just before this one does. -/
  rival : Option Bytes := none
  create : Option SystemError := none
  stream : Option Interruption := none
  /-- How many octets are still written, and what then interrupts. -/
  write : Option (Nat × Interruption) := none
  close : Option Interruption := none
  discard : Option SystemError := none
  harden : Option SystemError := none

/-- Modes of a file while it is being made, of one that is complete, and of a rival's. -/
def openMode : Nat := 0o600

def hardMode : Nat := 0o400

def rivalMode : Nat := 0o644

/-- What is to be done next. -/
inductive Stage
  | parents
  | check
  | load
  | draw
  | create (secret : Bytes)
  | stream (secret : Bytes) (file : Location)
  | write (secret : Bytes) (file : Location)
  | close (secret : Bytes)
  | discard (cause : SystemError)
  | harden (secret : Bytes)

/-- The most stages that can still follow. -/
def Stage.remaining : Stage → Nat
  | parents => 8
  | check => 7
  | draw => 6
  | create _ => 5
  | stream _ _ => 4
  | write _ _ => 3
  | close _ => 2
  | load | discard _ | harden _ => 0

/-- A stage leads to another or ends the run. -/
inductive Move
  | next (s : Stage)
  | ended (result : Except Abort Bytes)

namespace Move

def unusable (path : Path) (e : SystemError) : Move :=
  ended (.error (.failure (.keyStore (toString path) e)))

def misused (m : Misuse) : Move :=
  ended (.error (.misuse m))

/-- Only trouble with the system removes the file; anything else leaves it as it is. -/
def interrupted : Interruption → Move
  | .system e => next (.discard e)
  | .foreign f => ended (.error (.fault f))

end Move

open Move

variable (path : Path) (faults : Faults)

def makeParents (w : World) : Move × World :=
  if path.parent.hasNul then (misused .nulInPath, w)
  else
    match faults.parents with
    | some e => (unusable path e, w)
    | none =>
      match w.files.ensureDirectory path.parent with
      | (.ok (), files) => (next .check, { w with files })
      | (.error e, files) => (unusable path e, { w with files })

/-- A path that no file can have leads nowhere. -/
def lookForFile (w : World) : Move × World :=
  match faults.check with
  | some e => (unusable path e, w)
  | none =>
    match if path.hasNul then .ok false else w.files.pathExists (toString path) with
    | .ok true => (next .load, w.record .debug s!"Loading secret file {path}")
    | .ok false => (next .draw, w)
    | .error code => (unusable path (FileTree.errorAt path code), w)

def loadFile (w : World) : Move × World :=
  match faults.load with
  | some e => (unusable path e, w)
  | none =>
    match w.files.readFile (toString path) with
    | .ok content => (ended (.ok content), w)
    | .error code => (unusable path (FileTree.errorAt path code), w)

def drawSecret (w : World) : Move × World :=
  match faults.entropy with
  | some e => (unusable path e, w)
  | none =>
    let (secret, entropy) := w.ambient.entropy.draw Key.size
    let drawn := { w with ambient := { w.ambient with entropy } }
    (next (.create secret), drawn.record .info s!"Writing secret file {path}")

/-- The tree after the rival has been at work, or why it could not work. -/
def afterRival (files : FileTree) : Except SystemCode FileTree :=
  match faults.rival with
  | none => .ok files
  | some content => files.writeFile (toString path) rivalMode content

/-- Whatever stops the rival stops the creation too. -/
def creation (files : FileTree) : FileTree × Except SystemError (Location × FileTree) :=
  match afterRival path faults files with
  | .error code => (files, .error (FileTree.errorAt path code))
  | .ok files =>
    match faults.create with
    | some e => (files, .error e)
    | none =>
      (files,
        (files.createFile (toString path) openMode).mapError (FileTree.errorAt path))

def createFile (secret : Bytes) (w : World) : Move × World :=
  if path.hasNul then (misused .nulInPath, w)
  else
    match creation path faults w.files with
    | (_, .ok (file, files)) => (next (.stream secret file), { w with files })
    | (files, .error e) => (unusable path e, { w with files })

def openStream (secret : Bytes) (file : Location) (w : World) : Move × World :=
  match faults.stream with
  | some i => (interrupted i, w)
  | none => (next (.write secret file), w)

def writeSecret (secret : Bytes) (file : Location) (w : World) : Move × World :=
  match faults.write with
  | some (kept, i) => (interrupted i, { w with files := w.files.fill file (secret.take kept) })
  | none => (next (.close secret), { w with files := w.files.fill file secret })

def closeStream (secret : Bytes) (w : World) : Move × World :=
  match faults.close with
  | some i => (interrupted i, w)
  | none => (next (.harden secret), w)

/-- The tree without the partial file, or why that cannot be removed. -/
def removal (w : World) : Except SystemError FileTree :=
  match faults.discard with
  | some e => .error e
  | none => (w.files.unlink (toString path)).mapError (FileTree.errorAt path)

def discardPartial (cause : SystemError) (w : World) : Move × World :=
  match removal path faults w with
  | .ok files => (unusable path cause, { w with files })
  | .error e =>
    (unusable path cause,
      w.record .warning s!"Unable to remove partial secret file {path}: {e.text}")

/-- The tree with the file readable by its owner alone, or why that cannot be had. -/
def hardening (w : World) : Except SystemError FileTree :=
  match faults.harden with
  | some e => .error e
  | none => (w.files.changeMode (toString path) hardMode).mapError (FileTree.errorAt path)

def hardenFile (secret : Bytes) (w : World) : Move × World :=
  match hardening path faults w with
  | .ok files => (ended (.ok secret), { w with files })
  | .error e =>
    (ended (.ok secret),
      w.record .warning s!"Unable to restrict permissions on secret file {path}: {e.text}")

/-- One stage. -/
def advance : Stage → World → Move × World
  | .parents => makeParents path faults
  | .check => lookForFile path faults
  | .load => loadFile path faults
  | .draw => drawSecret path faults
  | .create secret => createFile path faults secret
  | .stream secret file => openStream faults secret file
  | .write secret file => writeSecret faults secret file
  | .close secret => closeStream faults secret
  | .discard cause => discardPartial path faults cause
  | .harden secret => hardenFile path faults secret

theorem remaining_lt_of_advance {s s' : Stage} {w : World}
    (h : (advance path faults s w).1 = .next s') : s'.remaining < s.remaining := by
  cases s <;>
    simp only [advance, makeParents, lookForFile, loadFile, drawSecret, createFile, openStream,
      writeSecret, closeStream, discardPartial, hardenFile, unusable, misused, interrupted] at h <;>
    repeat' split at h
  all_goals cases h
  all_goals simp [Stage.remaining]

/-- All stages from a given one to the end. -/
def finish (s : Stage) (w : World) : Except Abort Bytes × World :=
  match h : (advance path faults s w).1 with
  | .ended result => (result, (advance path faults s w).2)
  | .next s' =>
    have := remaining_lt_of_advance path faults h
    finish s' (advance path faults s w).2
termination_by s.remaining

/-- The octets of the key file; a missing file is made with fresh ones. -/
def ensure : Action Bytes :=
  ExceptT.mk fun w => finish path faults .parents w

/-- As above, for the start of a process: without a key that lasts the process gives up. -/
def ensureOrExit : Action Bytes :=
  tryCatch (ensure path faults) fun
    | .failure f => do
      (Task.log .error s!"ERROR: secret file: {f.message}").inWorld
      throw (.exit f)
    | other => throw other

end Strongbox.KeyFile
