import Strongbox.AssocList
import Strongbox.Bytes
import Strongbox.Files.Route
import Strongbox.SystemError

/-!
A tree of files, directories and symbolic links, held as a table of locations. A path is walked
name by name as the operating system does it: each directory on the way must let its names be
looked up, and links are followed, a limited number of them in all.
-/

namespace Strongbox

/-- The names from an entry outwards to the root, which is the empty list. -/
abbrev Location := List String

inductive Entry
  | file (mode : Nat) (content : Bytes)
  | directory (mode : Nat)
  | link (target : String)
deriving DecidableEq

namespace Entry

def isDirectory : Entry → Bool
  | directory _ => true
  | _ => false

end Entry

/-- The right of an owner that a mode grants, by the value of its bit. -/
def grants (mode bit : Nat) : Bool :=
  mode / bit % 2 = 1

/-- The bits for writing, and for looking names up in a directory. -/
def writeBit : Nat := 0o200

def searchBit : Nat := 0o100

structure FileTree where
  entries : List (Location × Entry)
  workingDirectory : Location

/-- Where a walk ends: at an entry, or at a free name in a directory that exists. -/
inductive Place
  | found (location : Location) (entry : Entry)
  | vacant (location : Location)

namespace FileTree

/-- The mode of a directory when it is made. -/
def directoryMode : Nat := 0o755

/-- Nothing but a working directory and the directories around it. -/
def empty (workingDirectory : Location) : FileTree where
  entries := (List.range workingDirectory.length).map fun i =>
    (workingDirectory.drop i, .directory directoryMode)
  workingDirectory

/-- The root is always there. -/
def lookup (t : FileTree) : Location → Option Entry
  | [] => some (.directory directoryMode)
  | l => t.entries.lookup l

def put (t : FileTree) (l : Location) (e : Entry) : FileTree :=
  { t with entries := AssocList.put l e t.entries }

def remove (t : FileTree) (l : Location) : FileTree :=
  { t with entries := AssocList.remove l t.entries }

theorem lookup_put (t : FileTree) (l l' : Location) (e : Entry) (h : l ≠ []) :
    (t.put l e).lookup l' = if l' = l then some e else t.lookup l' := by
  cases l' with
  | nil => simp [lookup, Ne.symm h]
  | cons n rest => simp [lookup, put, AssocList.lookup_put]

theorem lookup_remove (t : FileTree) (l l' : Location) (h : l ≠ []) :
    (t.remove l).lookup l' = if l' = l then none else t.lookup l' := by
  cases l' with
  | nil => simp [lookup, Ne.symm h]
  | cons n rest => simp [lookup, remove, AssocList.lookup_remove]

/-- The octets that a single name may have, and those a whole path must stay below. -/
def nameLimit : Nat := 255

def pathLimit : Nat := 4096

/-- The links that one walk may follow. -/
def linkLimit : Nat := 40

/-- The mode of a directory; what is no directory counts as one that has just been made. -/
def modeAt (t : FileTree) (l : Location) : Nat :=
  match t.lookup l with
  | some (.directory mode) => mode
  | _ => directoryMode

/-- Whether names can be looked up in a directory. -/
def isSearchable (t : FileTree) (l : Location) : Bool :=
  grants (t.modeAt l) searchBit

/-- What happens at a link: the walk goes on along its target, from the directory that holds the
link, and then along the names still to come. -/
abbrev LinkRule := String → Location → List String → Except SystemCode Place

/-- The end of a walk, at the last name. -/
def arrive (t : FileTree) (aim : Aim) (closed : Bool) (onLink : LinkRule) (here : Location)
    (n : String) : Except SystemCode Place :=
  if closed && aim.slash = .refused then .error .isDirectory
  else if nameLimit < n.utf8ByteSize then .error .nameTooLong
  else
    match t.lookup (n :: here) with
    | none => .ok (.vacant (n :: here))
    | some (.directory mode) => .ok (.found (n :: here) (.directory mode))
    | some (.file mode content) =>
      if closed && aim.slash = .demandsDirectory then .error .notDirectory
      else .ok (.found (n :: here) (.file mode content))
    | some (.link target) =>
      if aim.follows closed then onLink target here []
      else .ok (.found (n :: here) (.link target))

/-- The walk along names from a directory. -/
def along (t : FileTree) (aim : Aim) (closed : Bool) (onLink : LinkRule) :
    Location → List String → Except SystemCode Place
  | here, [] => .ok (.found here (.directory (t.modeAt here)))
  | here, n :: rest =>
    if !t.isSearchable here then .error .accessDenied
    else if n = "." then along t aim closed onLink here rest
    else if n = ".." then along t aim closed onLink here.tail rest
    else if rest.isEmpty then t.arrive aim closed onLink here n
    else if nameLimit < n.utf8ByteSize then .error .nameTooLong
    else
      match t.lookup (n :: here) with
      | none => .error .noEntry
      | some (.directory _) => along t aim closed onLink (n :: here) rest
      | some (.file _ _) => .error .notDirectory
      | some (.link target) => onLink target here rest

/-- Where the walk along a link's target starts. -/
def targetStart (target : Route) (here : Location) : Location :=
  if target.fromRoot then [] else here

/-- A slash at the end of a target counts if the target is the end of the path. -/
def walk (t : FileTree) (aim : Aim) :
    Nat → Bool → Location → List String → Except SystemCode Place
  | 0, closed => t.along aim closed fun _ _ _ => .error .tooManyLinks
  | links + 1, closed => t.along aim closed fun target here rest =>
    let route := Route.ofText target
    walk t aim links (closed || rest.isEmpty && route.closed) (targetStart route here)
      (route.names ++ rest)

def startOf (t : FileTree) (fromRoot : Bool) : Location :=
  if fromRoot then [] else t.workingDirectory

/-- Where a path leads. -/
def locate (t : FileTree) (aim : Aim) (written : String) : Except SystemCode Place :=
  if written.isEmpty then .error .noEntry
  else if pathLimit ≤ written.utf8ByteSize then .error .nameTooLong
  else
    let route := Route.ofText written
    t.walk aim linkLimit route.closed (t.startOf route.fromRoot) route.names

end FileTree

end Strongbox
