import Strongbox.Files.Path

/-!
Routes: paths as they are written, cut into the names that are walked one after the other. The
name for the directory itself and the one for its parent are among them.
-/

namespace Strongbox

structure Route where
  fromRoot : Bool
  names : List String
  /-- Whether a slash follows the last name. -/
  closed : Bool
deriving DecidableEq

namespace Route

def ofText (written : String) : Route where
  fromRoot := written.toList.head? = some '/'
  names := ((Path.stretches written.toList).map String.ofList).filter (· ≠ "")
  closed := written.toList.getLast? = some '/'

end Route

/-- What a slash after the last name of a path means. -/
inductive FinalSlash
  /-- A directory must be there, perhaps behind a link. -/
  | demandsDirectory
  | ignored
  /-- No file can be made under such a path. -/
  | refused
deriving DecidableEq

/-- How the last name of a path is taken. -/
structure Aim where
  /-- Whether a link under the last name is followed. -/
  follow : Bool
  slash : FinalSlash
deriving DecidableEq

namespace Aim

/-- The entry that a path leads to. -/
def entry : Aim := ⟨true, .demandsDirectory⟩

/-- The entry under the last name, be it a link. -/
def status : Aim := ⟨false, .demandsDirectory⟩

/-- The last name itself, to be given to something new or taken away. -/
def name : Aim := ⟨false, .ignored⟩

/-- A file to be written, and made if it is not there. -/
def file : Aim := ⟨true, .refused⟩

/-- A file to be made where nothing is. -/
def newFile : Aim := ⟨false, .refused⟩

def follows (a : Aim) (closed : Bool) : Bool :=
  a.follow || closed && a.slash = .demandsDirectory

end Aim

end Strongbox
