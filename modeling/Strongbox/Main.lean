import Strongbox.CommandLine.Run

/-!
The program on a real machine. Each run looks at the files along the path of the key, runs on that
picture of them, and then makes the key file if the run has made one.
-/

namespace Strongbox.Machine

/-- What lies at a path; whatever cannot be read as a file is taken for a directory. -/
def look (path : String) : IO (Option Entry) := do
  try
    let content ← IO.FS.readBinFile path
    return some (.file KeyFile.openMode content.toList)
  catch
    | .noFileOrDirectory .. => return none
    | _ => return some (.directory FileTree.directoryMode)

/-- The path and all the paths above it, outermost first. -/
def above (p : Path) : Nat → List Path
  | 0 => [p]
  | n + 1 => above p.parent n ++ [p]

/-- Where a path leads if there are no links on it. -/
def spot (files : FileTree) (p : Path) : Location :=
  FileTree.descend (files.startOf (p.root ≠ .relative)) p.names

def picture (files : FileTree) (p : Path) : IO FileTree := do
  let mut files := files
  for q in above p p.names.length do
    if !q.names.isEmpty then
      if let some e ← look (toString q) then files := files.put (spot files q) e
  return files

/-- Locations are written from the root outwards. -/
def workingDirectory : IO Location := do
  let here := (← IO.currentDir).toString
  return (Path.ofString here).names.reverse

/-- Makes a file that must not exist, readable by its owner alone. -/
def commit (p : Path) (content : Bytes) : IO Unit := do
  IO.FS.createDirAll (toString p.parent)
  let h ← IO.FS.Handle.mk (toString p) .writeNew
  h.write ⟨content.toArray⟩
  h.flush
  IO.setAccessRights (toString p) { user := { read := true } }

/-- The content of a file that a run has made. -/
def made (before after : FileTree) (p : Path) : Option Bytes :=
  match before.lookup (spot before p), after.lookup (spot after p) with
  | none, some (.file _ content) => some content
  | _, _ => none

/-- The entropy that one run may draw: a key and an initialisation vector. -/
def entropySize : Nat := Key.size + Envelope.ivSize

def randomBytes (size : Nat) : IO Bytes :=
  return (← IO.getRandomBytes (USize.ofNat size)).toList

def seed : IO Nat :=
  return (← randomBytes 32).foldl (fun n b => 256 * n + b.toNat) 0

def readVariables : IO (String → Option String) := do
  let values ← SettingField.all.mapM fun f => return (f.variableName, ← IO.getEnv f.variableName)
  return fun name => (values.lookup name).join

def world (p : Path) : IO World := do
  let entropy := Entropy.ofBytes (← randomBytes entropySize)
  let files ← picture (.empty (← workingDirectory)) p
  return { ambient := { entropy, generator := entropy, log := [] }, files }

/-- The path of the key, or the default one while the settings are refused. -/
def keyPath (environment : String → Option String) : Path :=
  match Settings.ofVariables environment with
  | .ok settings => settings.secretPath
  | .error _ => Settings.default.secretPath

def run (arguments : List String) : IO UInt32 := do
  let environment ← readVariables
  let path := keyPath environment
  let before ← world path
  let (result, after) := CommandLine.run arguments environment (Twister.ofSeed (← seed)) before
  if let some content := made before.files after.files path then commit path content
  match result with
  | .ok ending =>
    IO.print ending.output
    IO.eprint ending.errors
    return UInt32.ofNat ending.status
  | .error _ =>
    IO.eprintln "the operation was broken off"
    return 1

end Strongbox.Machine

def main (arguments : List String) : IO UInt32 :=
  Strongbox.Machine.run arguments
