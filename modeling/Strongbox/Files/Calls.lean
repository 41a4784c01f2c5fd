import Strongbox.Files.Tree

/-!
The calls of the operating system on a file tree, each one atomic, and the list of all there is.
-/

namespace Strongbox

/-- No path can be handed over that has this character in it. -/
def hasNul (written : String) : Bool :=
  written.toList.contains '\x00'

namespace FileTree

/-- The entry at a path. -/
def status (t : FileTree) (aim : Aim) (p : String) : Except SystemCode Entry := do
  match ← t.locate aim p with
  | .found _ e => return e
  | .vacant _ => throw .noEntry

/-- Reasons for which a path counts as leading nowhere. -/
def isAbsence : SystemCode → Bool
  | .noEntry | .notDirectory | .tooManyLinks => true
  | _ => false

/-- Whether a path leads to an entry of some kind; only absence counts as a negative answer. -/
def leadsTo (t : FileTree) (kind : Entry → Bool) (p : String) : Except SystemCode Bool :=
  match t.status .entry p with
  | .ok e => .ok (kind e)
  | .error code => if isAbsence code then .ok false else .error code

def pathExists (t : FileTree) (p : String) : Except SystemCode Bool :=
  t.leadsTo (fun _ => true) p

def isDirectory (t : FileTree) (p : String) : Except SystemCode Bool :=
  t.leadsTo Entry.isDirectory p

/-- Whether a path can be seen to lead somewhere. -/
def appears (t : FileTree) (p : String) : Bool :=
  !hasNul p && (t.status .entry p).toOption.isSome

def makeDirectory (t : FileTree) (p : String) : Except SystemCode FileTree := do
  match ← t.locate .name p with
  | .found _ _ => throw .alreadyExists
  | .vacant l => return t.put l (.directory directoryMode)

/-- A link is no directory, so a slash after its name asks for something that is not there. -/
def makeLink (t : FileTree) (p target : String) : Except SystemCode FileTree := do
  if target.isEmpty then throw .noEntry
  if pathLimit ≤ target.utf8ByteSize then throw .nameTooLong
  match ← t.locate .name p with
  | .found _ _ => throw .alreadyExists
  | .vacant l => if (Route.ofText p).closed then throw .noEntry else return t.put l (.link target)

/-- Creates an empty file where nothing is, not even a link, and tells where it lies. -/
def createFile (t : FileTree) (p : String) (mode : Nat) :
    Except SystemCode (Location × FileTree) := do
  match ← t.locate .newFile p with
  | .found _ _ => throw .alreadyExists
  | .vacant l => return (l, t.put l (.file mode []))

/-- Replaces the content of a file that has been opened. -/
def fill (t : FileTree) (l : Location) (content : Bytes) : FileTree :=
  match t.lookup l with
  | some (.file mode _) => t.put l (.file mode content)
  | _ => t

def readFile (t : FileTree) (p : String) : Except SystemCode Bytes := do
  match ← t.status .entry p with
  | .file _ content => return content
  | _ => throw .isDirectory

/-- Writes a file through links; one that is there keeps its mode, which must let it be written. -/
def writeFile (t : FileTree) (p : String) (mode : Nat) (content : Bytes) :
    Except SystemCode FileTree := do
  match ← t.locate .file p with
  | .found l (.file mode _) =>
    if grants mode writeBit then return t.put l (.file mode content) else throw .accessDenied
  | .found _ _ => throw .isDirectory
  | .vacant l => return t.put l (.file mode content)

/-- Everything but the root belongs to whoever changes its mode. -/
def changeMode (t : FileTree) (p : String) (mode : Nat) : Except SystemCode FileTree := do
  match ← t.locate .entry p with
  | .found [] _ => throw .notPermitted
  | .found l (.file _ content) => return t.put l (.file mode content)
  | .found l _ => return t.put l (.directory mode)
  | .vacant _ => throw .noEntry

def unlink (t : FileTree) (p : String) : Except SystemCode FileTree := do
  match ← t.locate .name p with
  | .found _ (.directory _) => throw .isDirectory
  | .found l _ => if (Route.ofText p).closed then throw .notDirectory else return t.remove l
  | .vacant _ => throw .noEntry

/-- An error that names the file it is about. -/
def errorAt (p : Path) (code : SystemCode) : SystemError :=
  { code, file := some (toString p) }

/-- Whether names can be looked up in a directory and in all those above it up to a base. -/
def isOpenBelow (t : FileTree) (base : Location) : Location → Bool
  | [] => t.isSearchable []
  | n :: outer =>
    t.isSearchable (n :: outer) && (decide (n :: outer = base) || t.isOpenBelow base outer)

/-- Whether an entry is come upon from the working directory: a directory is entered if names can
be looked up in those above it. -/
def isListed (t : FileTree) (l : Location) : Bool :=
  decide (t.workingDirectory.length < l.length) &&
    t.workingDirectory.reverse.isPrefixOf l.reverse &&
    t.isOpenBelow t.workingDirectory
      (if l.tail = t.workingDirectory then l.tail else l.tail.tail)

/-- The paths of everything below the working directory, in the order of their code points. -/
def listing (t : FileTree) : List String :=
  let below := (t.entries.map Prod.fst).filter t.isListed
  let names := below.map fun l => "/".intercalate (l.reverse.drop t.workingDirectory.length)
  names.mergeSort fun a b => a ≤ b

end FileTree

end Strongbox
