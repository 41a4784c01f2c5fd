import Strongbox.Attribute
import Strongbox.Properties.Document
import Strongbox.Session.State

/-!
Ciphers and handlers in a session, and the properties and attributes that they convert.
-/

namespace Strongbox.Session

def zeroKey : Key where
  bytes := List.replicate Key.size 0
  length_eq := by decide

/-- Makes the primitive of a cipher fail from now on. -/
def breakCipher : Option Nat → Option Fault → Work Unit
  | some i, some f => modify fun s =>
    { s with ciphers := s.ciphers.modify i fun c => { c with fault := some f } }
  | _, _ => return

/-- The number of a cipher, if what is chosen is one. -/
def chooseCipher : CipherChoice → Work (Option Nat)
  | .zeroKey => return some (← addCipher { key := zeroKey })
  | .secret t => do return some (← addCipher (← (Cipher.make (← resolve t)).inSession))
  | .named name => do
    match ← heldAt name with
    | .cipher i => return some i
    | _ => return none

def cipherOf (u : CipherUse) : Work Cipher := do
  let choice ← chooseCipher u.choice
  breakCipher choice u.fault
  match choice with
  | some i => entry ciphers i
  | none => refuse .incapable

/-- The number of a handler that a name stands for already. -/
def handlerNamed? (s : Session) : CipherChoice → Option Nat
  | .named name =>
    match s.held? name with
    | some (.handler i) => some i
    | _ => none
  | _ => none

/-- A handler that is there keeps its marker, and its cipher works as before. -/
def chooseHandler (u : HandlerUse) : Work Nat := do
  match (← get).handlerNamed? u.cipher.choice with
  | some i => return i
  | none =>
    let cipher ← chooseCipher u.cipher.choice
    breakCipher cipher u.cipher.fault
    Handler.announce.inSession
    addHandler { cipher, marker := u.marker.getD Handler.standardMarker }

/-- A handler that was made for no cipher is given one, which is not to be used. -/
def handlerAt (i : Nat) : Work Handler := do
  let h ← entry handlers i
  match h.cipher with
  | some c => return { cipher := ← entry ciphers c, marker := h.marker }
  | none => return { cipher := { key := zeroKey }, marker := h.marker }

/-- What takes a cipher comes to nothing without one. -/
def requireCipher (i : Nat) : Work Unit := do
  if (← entry handlers i).cipher.isNone then refuse .incapable

/-- The number of the handler and the handler itself. -/
def numberedHandler (u : HandlerUse) : Work (Nat × Handler) := do
  let i ← chooseHandler u
  return (i, ← handlerAt i)

/-- Imports a secret; one that is made up is tried by importing its own text. -/
def importKey (secret : Term) : Work (Reply × Nat) := do
  let v ← resolve secret
  let c ← (Cipher.make v).inSession
  let i ← addCipher c
  match v with
  | .null =>
    let other ← (Cipher.make .null).inSession
    let again ← (Cipher.make (.text c.key.encoded)).inSession
    return (.freshKey c.key (again.key = c.key) (other.key ≠ c.key), i)
  | _ => return (.key c.key, i)

def resolveSources (sources : List (List (String × Term))) : Work (List Source) :=
  sources.mapM resolveEntries

def decryptedEntries (entries : List (String × String)) : List (String × Value) :=
  entries.map fun (k, s) => (k, .text s)

/-- Whether a marked value owns its key. -/
def ownsMarked (h : Handler) (sources : List Source) : Bool :=
  ({ sources, overlay := [] } : PropertyView).items.any fun (_, v) => h.isMarked v

def decryptProperties (u : HandlerUse) (sources : List (List (String × Term))) : Work Value := do
  let (i, h) ← numberedHandler u
  let sources ← resolveSources sources
  if ownsMarked h sources then requireCipher i
  return .ofEntries (decryptedEntries (← (Properties.decrypt h sources).inSession))

/-- Names as a list of texts. -/
def nameList (names : List String) : Value :=
  .list (names.map .text)

def itemValue (item : String × Value) : Value :=
  .list [.text item.1, item.2]

def answer (p : PropertyView) : Query → Work Value
  | .get k => Work.conclude ((p.get k).mapError fun m => .abort (.misuse m))
  | .getD k default => return p.getD k (← resolve default)
  | .contains k => return .bool (p.contains k)
  | .keys => return nameList p.keys
  | .size => return .int p.size
  | .summary => return .text p.summary
  | .decryptedKeys => return nameList p.decryptedKeys
  | .items => return .list (p.items.map itemValue)
  | .equals t => return .bool (p.equals (← resolve t))

/-- A question that comes to nothing does not keep the others from being answered. -/
def answers (i : Nat) (h : Handler) (sources : List Source) (queries : List Query) :
    Work Reply := do
  if ownsMarked h sources then requireCipher i
  let p ← (PropertyView.build h sources).inSession
  return .answers (← queries.mapM fun q => (answer p q >>= shown).observe)

def viewProperties (u : HandlerUse) (sources : List (List (String × Term)))
    (queries : List Query) : Work Reply := do
  let (i, h) ← numberedHandler u
  answers i h (← resolveSources sources) queries

/-- Files are made with this mode unless they ask for another. -/
def documentMode : Nat := 0o644

def writeDocument (path : String) (content : Bytes) : Action Unit := do
  let p := Path.ofString path
  if p.hasNul then throw (.misuse .nulInPath)
  let w ← get
  match w.files.writeFile (toString p) documentMode content with
  | .ok files => set { w with files }
  | .error code => throw (.system (FileTree.errorAt p code))

def loadDocument (d : Document) : Work Source := do
  match d.content with
  | some content => (writeDocument d.path content).inSession
  | none => pure ()
  (Properties.load d.path).inSession

def viewDocument (d : Document) (u : HandlerUse) (queries : List Query) : Work Reply := do
  let source ← loadDocument d
  let (i, h) ← numberedHandler u
  answers i h [source] queries

end Strongbox.Session
