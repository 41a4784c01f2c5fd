import Strongbox.Session.State

/-!
Files in a session. Whatever is written is readable by its owner alone, and what stands in the way
of writing by its mode is cleared first.
-/

namespace Strongbox.Session

def fileMode : Nat := 0o600

/-- A call on the file tree at paths that are handed over as they are written. -/
def onFiles {α : Type} (paths : List String)
    (call : FileTree → Except SystemCode (α × FileTree)) : Action α := do
  if paths.any hasNul then throw (.misuse .nulInPath)
  let w ← get
  match call w.files with
  | .ok (a, files) => set { w with files } *> return a
  | .error code => throw (.system { code })

def fileChange (paths : List String) (call : FileTree → Except SystemCode FileTree) :
    Action Unit :=
  onFiles paths fun t => return ((), ← call t)

/-- The mode is set before and after, and a directory in the way keeps it. -/
def writeFile (path : String) (content : Bytes) : Action Unit := do
  if (← get).files.appears path then
    fileChange [path] fun t => t.changeMode path fileMode
  fileChange [path] fun t => t.writeFile path fileMode content
  fileChange [path] fun t => t.changeMode path fileMode

def makeDirectories (path : String) : Action Unit :=
  ExceptT.mk fun w =>
    let (result, files) := w.files.makeDirectories path.toList
    (result, { w with files })

def performFileCall : FileCall → Action Reply
  | .write path content => do
    writeFile path content
    return .value .null
  | .makeDirectory path => do
    makeDirectories path
    return .value .null
  | .makeLink path target => do
    fileChange [target, path] fun t => t.makeLink path target
    return .value .null
  | .unlink path => do
    fileChange [path] fun t => t.unlink path
    return .value .null
  | .read path => onFiles [path] fun t => return (.value (.ofBytes (← t.readFile path)), t)
  | .status path => onFiles [path] fun t => return (.status (← t.status .status path), t)
  | .listing => return .value (.list ((← get).files.listing.map .text))

end Strongbox.Session
