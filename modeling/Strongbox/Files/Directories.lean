import Strongbox.Abort
import Strongbox.Files.Calls

/-!
Directories that are created together with those above them: one that may be there already, and
one that must be new.
-/

namespace Strongbox.FileTree

/-- A failed attempt is forgiven if the directory is there all the same. -/
def forgive (t : FileTree) (p : Path) (code : SystemCode) : Except SystemError Unit :=
  match t.isDirectory (toString p) with
  | .ok true => .ok ()
  | .ok false => .error (errorAt p code)
  | .error other => .error (errorAt p other)

/-- Creates a directory and, where they are missing, those above it. Directories created before a
failure stay. -/
def ensureDirectory (t : FileTree) (p : Path) : Except SystemError Unit × FileTree :=
  match t.makeDirectory (toString p) with
  | .ok t => (.ok (), t)
  | .error .noEntry =>
    if h : p.names = [] then (.error (errorAt p .noEntry), t)
    else
      have := p.length_parent_lt h
      match ensureDirectory t p.parent with
      | (.error e, t) => (.error e, t)
      | (.ok (), t) =>
        match t.makeDirectory (toString p) with
        | .ok t => (.ok (), t)
        | .error .noEntry => (.error (errorAt p .noEntry), t)
        | .error code => (t.forgive p code, t)
  | .error code => (t.forgive p code, t)
termination_by p.names.length

/-- A written path before its last slash, without the slashes there unless it is nothing else, and
the name after that slash. -/
def cut (written : List Char) : List Char × List Char :=
  let outward := written.reverse
  let before := outward.dropWhile (· != '/')
  let bare := before.dropWhile (· = '/')
  ((if bare.isEmpty then before else bare).reverse, (outward.takeWhile (· != '/')).reverse)

/-- As above, but slashes at the very end do not count. -/
def cutName (written : List Char) : List Char × List Char :=
  if (cut written).2.isEmpty then cut (cut written).1 else cut written

theorem length_cut_le (written : List Char) :
    (cut written).1.length + (cut written).2.length ≤ written.length := by
  have hsplit := congrArg List.length
    (List.takeWhile_append_dropWhile (p := (· != '/')) (l := written.reverse))
  have hbare := ((written.reverse.dropWhile (· != '/')).dropWhile_suffix (· = '/')).length_le
  simp only [List.length_append, List.length_reverse] at hsplit
  simp only [cut]
  split <;> simp only [List.length_reverse] <;> omega

theorem length_cutName_le (written : List Char) :
    (cutName written).1.length + (cutName written).2.length ≤ written.length := by
  have h := length_cut_le written
  have h' := length_cut_le (cut written).1
  simp only [cutName]
  split <;> omega

def makeWritten (t : FileTree) (written : List Char) : Except Abort Unit × FileTree :=
  if written.contains '\x00' then (.error (.misuse .nulInPath), t)
  else
    match t.makeDirectory (String.ofList written) with
    | .ok t => (.ok (), t)
    | .error code => (.error (.system { code }), t)

def isCollision : Except Abort Unit → Bool
  | .error (.system e) => e.code = .alreadyExists
  | _ => false

/-- Creates a directory that must be new and, where they are missing, those above it. If the last
name is that of the directory itself, those above are enough. -/
def makeDirectories (t : FileTree) (written : List Char) : Except Abort Unit × FileTree :=
  let outer := (cutName written).1
  let name := (cutName written).2
  if h : outer ≠ [] ∧ name ≠ [] ∧ !t.appears (String.ofList outer) then
    have : outer.length < written.length := by
      have := length_cutName_le written
      have := List.length_pos_iff.mpr h.2.1
      simp only [outer, name] at *
      omega
    match makeDirectories t outer with
    | (result, t) =>
      if result.isOk || isCollision result then
        if name = ['.'] then (.ok (), t) else t.makeWritten written
      else (result, t)
  else t.makeWritten written
termination_by written.length

end Strongbox.FileTree
