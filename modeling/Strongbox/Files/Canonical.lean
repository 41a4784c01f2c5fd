import Strongbox.Abort
import Strongbox.Files.Calls

/-!
Canonical locations of paths, by which stores of one file recognise each other. Links are
resolved as far as they can be seen; everything else is taken as it is written.
-/

namespace Strongbox

/-- A path in the making, free of links: its names from the last one back to where it starts. -/
structure Stem where
  fromRoot : Bool
  names : List String
deriving DecidableEq

namespace Stem

def push (s : Stem) (n : String) : Stem :=
  { s with names := n :: s.names }

/-- The directory around it. A relative stem that has no name to give up goes one further out. -/
def outer (s : Stem) : Stem :=
  match s.names with
  | [] => if s.fromRoot then s else s.push ".."
  | n :: rest => if n = ".." then s.push ".." else { s with names := rest }

def text (s : Stem) : String :=
  (if s.fromRoot then "/" else "") ++ "/".intercalate s.names.reverse

end Stem

namespace FileTree

/-- The names of a link's target as they are written, empty ones between slashes included. -/
def writtenNames (target : String) : List String :=
  (Path.stretches target.toList).map String.ofList

/-- The location that names lead to if none of them is a link. -/
def descend : Location → List String → Location
  | here, [] => here
  | here, n :: rest =>
    if n = "" ∨ n = "." then descend here rest
    else if n = ".." then descend here.tail rest
    else descend (n :: here) rest

/-- The location that the rest of a target leads to if it is joined on as it is written: a rest
that opens with a slash starts from the root. -/
def joinWritten (here : Location) : List String → Location
  | "" :: n :: rest => descend [] (n :: rest)
  | rest => descend here rest

def stemLocation (t : FileTree) (s : Stem) : Location :=
  descend (t.startOf s.fromRoot) s.names.reverse

/-- Where the resolution of a path ends. -/
inductive Resolution
  | reached (s : Stem)
  /-- A link leads back to itself, and the names after it were joined on as they are written. -/
  | circular (l : Location)

/-- What happens at a link, given its path and its target. -/
abbrev LinkResolver := Stem → String → Except Misuse Resolution

/-- Resolves names from a stem. Only links that can be looked up count as links. -/
def resolveAlong (t : FileTree) (onLink : LinkResolver) :
    Stem → List String → Except Misuse Resolution
  | stem, [] => .ok (.reached stem)
  | stem, n :: rest =>
    if n = "" ∨ n = "." then resolveAlong t onLink stem rest
    else if n = ".." then resolveAlong t onLink stem.outer rest
    else if Strongbox.hasNul n then .error .nulInPath
    else
      match t.status .status (stem.push n).text with
      | .ok (.link target) =>
        match onLink (stem.push n) target with
        | .ok (.reached there) => resolveAlong t onLink there rest
        | .ok (.circular there) => .ok (.circular (joinWritten there rest))
        | .error m => .error m
      | _ => resolveAlong t onLink (stem.push n) rest

/-- The stem from which a link's target is resolved. -/
def targetStem (target : String) (link : Stem) : Stem :=
  if (Route.ofText target).fromRoot then ⟨true, []⟩ else { link with names := link.names.tail }

/-- `pending` are the links being resolved; `depth` bounds how deep they lie in each other. -/
def resolveWithin (t : FileTree) : Nat → List Stem → Stem → List String → Except Misuse Resolution
  | 0, _ => resolveAlong t fun link _ => .ok (.circular (t.stemLocation link))
  | depth + 1, pending => resolveAlong t fun link target =>
    if link ∈ pending then .ok (.circular (t.stemLocation link))
    else resolveWithin t depth (link :: pending) (targetStem target link) (writtenNames target)

/-- A link may be come upon by several paths, but by no more than these. -/
def resolveDepth (t : FileTree) : Nat :=
  4 * t.entries.length

def locationText (l : Location) : String :=
  Stem.text ⟨true, l⟩

/-- The location that a path resolves to. -/
def resolved (t : FileTree) (p : Path) : Except Misuse Location := do
  match ← t.resolveWithin t.resolveDepth [] ⟨p.root ≠ .relative, []⟩ p.names with
  | .reached stem => return t.stemLocation stem
  | .circular l => return l

/-- The canonical location of a path, unless walking there goes round in circles. -/
def canonical (t : FileTree) (p : Path) : Except Misuse Location := do
  let l ← t.resolved p
  if Strongbox.hasNul (locationText l) then throw .nulInPath
  match t.status .entry (locationText l) with
  | .error .tooManyLinks => throw .linkLoop
  | _ => return l

end FileTree

end Strongbox
