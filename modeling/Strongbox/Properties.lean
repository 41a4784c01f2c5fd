import Strongbox.Dictionary
import Strongbox.Handler

/-!
Properties from several sources, the most important first. The first source that has a key owns
it; a marked value that owns its key is decrypted, and values it hides are never looked at.
-/

namespace Strongbox

/-- One mapping of property names to values. -/
abbrev Source := Dictionary Value

namespace Properties

/-- The decrypted values among entries whose keys have not been seen, in order. -/
def decryptEntries (h : Handler) : List String → List (String × Value) →
    Task (List (String × String))
  | _, [] => return []
  | seen, (k, v) :: rest => do
    if k ∈ seen then decryptEntries h seen rest
    else
      match h.marked? v with
      | none => decryptEntries h (k :: seen) rest
      | some encoded =>
        let plain ← h.cipher.decryptText encoded
        let more ← decryptEntries h (k :: seen) rest
        return (k, plain) :: more

/-- Names in the order of their code points. -/
def sortNames (names : List String) : List String :=
  names.mergeSort fun a b => a ≤ b

/-- The decrypted value of each property whose own value is marked. -/
def decrypt (h : Handler) (sources : List Source) : Task (List (String × String)) := do
  let decrypted ← decryptEntries h [] (sources.flatMap Dictionary.entries)
  if !decrypted.isEmpty then
    let names := sortNames (decrypted.map Prod.fst)
    Task.log .debug s!"Decrypted properties: {Value.quotedNames names}"
  return decrypted

end Properties

/-- A read-only view of sources: decrypted values are consulted first, then each source in turn. -/
structure PropertyView where
  sources : List Source
  overlay : List (String × String)

namespace PropertyView

def build (h : Handler) (sources : List Source) : Task PropertyView :=
  return { sources, overlay := ← Properties.decrypt h sources }

def find? (p : PropertyView) (k : String) : Option Value :=
  match p.overlay.lookup k with
  | some plain => some (.text plain)
  | none => p.sources.findSome? fun source => source.find? k

def get (p : PropertyView) (k : String) : Except Misuse Value :=
  match p.find? k with
  | some v => .ok v
  | none => .error (.missingKey k)

def getD (p : PropertyView) (k : String) (default : Value) : Value :=
  (p.find? k).getD default

def contains (p : PropertyView) (k : String) : Bool :=
  p.sources.any fun source => source.contains k

/-- The names that are not among those seen, each once, in order of first appearance. -/
def distinct : List String → List String → List String
  | _, [] => []
  | seen, k :: rest =>
    if k ∈ seen then distinct seen rest else k :: distinct (k :: seen) rest

def keys (p : PropertyView) : List String :=
  distinct [] (p.sources.flatMap Dictionary.keys)

def size (p : PropertyView) : Nat :=
  p.keys.length

def items (p : PropertyView) : List (String × Value) :=
  p.keys.filterMap fun k => (p.find? k).map fun v => (k, v)

/-- Equal to a dictionary with equal values under the same keys, and to nothing else. -/
def equals (p : PropertyView) : Value → Bool
  | .dict entries => Value.equals (.ofEntries p.items) (.dict entries)
  | _ => false

def decryptedKeys (p : PropertyView) : List String :=
  Properties.sortNames (p.overlay.map Prod.fst)

/-- The number of sources and the decrypted names, but no value. -/
def summary (p : PropertyView) : String :=
  s!"<DecryptedProperties [sources:{p.sources.length}] decrypted={Value.quotedNames p.decryptedKeys}>"

end PropertyView

end Strongbox
