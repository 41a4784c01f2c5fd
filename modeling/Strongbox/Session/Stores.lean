import Strongbox.Callers
import Strongbox.Session.State

/-!
Key files, key stores and lazy handlers in a session.
-/

namespace Strongbox.Session

def storeAt (i : Nat) : Work KeyStore :=
  entry stores i

/-- An action on one of the stores. -/
def atStore {α : Type} (i : Nat) (a : StoreAction α) : Work α := do
  let store ← storeAt i
  ExceptT.mk fun s =>
    let (result, c) := StateT.run (ExceptT.run a) { store, world := s.world }
    (result.mapError .abort, { s with stores := s.stores.set i c.store, world := c.world })

def readKeyFile (path : String) (fatal : Bool) (faults : KeyFile.Faults) : Action Bytes :=
  let p := Path.ofString path
  if fatal then KeyFile.ensureOrExit p faults else KeyFile.ensure p faults

def makeStore (path : Option String) (fatal : Bool) : Work (KeyStore × Nat) := do
  let p := (path.map Path.ofString).getD Settings.default.secretPath
  let store ← (KeyStore.make p fatal).inSession
  return (store, ← addStore store)

def buffer (bs : Bytes) : Value :=
  .bytes .buffer bs

def zeroed (bs : Bytes) : Bytes :=
  bs.map fun _ => 0

def pathIdentity (store : Nat) (path : Path) : Identity :=
  match path.root, path.names with
  | .relative, [n] => .nameOf n
  | _, _ => .pathOf store

/-- The answer of a store. The key and the path are the same ones every time. -/
def askStore (i : Nat) (faults : KeyFile.Faults) : StoreCall → Work (Value × Held)
  | .path => do
    let path := (← storeAt i).path
    let v := .text (toString path)
    return (v, identified v (pathIdentity i path))
  | .isLoaded => do fresh (.bool (← storeAt i).isLoaded)
  | .load => do
    let v := .ofBytes (← atStore i (KeyStore.load faults))
    return (v, identified v (.keyOf i))
  | .copy => do fresh (buffer (← atStore i (KeyStore.load faults)))
  | .scrub => do
    let mine ← atStore i (KeyStore.load faults)
    let copy ← atStore i (KeyStore.load faults)
    let kept ← atStore i (KeyStore.load faults)
    fresh (.list [buffer (zeroed mine), buffer copy, .ofBytes kept])
where
  fresh (v : Value) : Work (Value × Held) :=
    return (v, ← newValue v)

/-- A new handler, with a cipher of its own, for the key of a store. -/
def handlerOfStore (i : Nat) (faults : KeyFile.Faults) : Work Nat := do
  let h ← atStore i (KeyStore.handler Handler.standardMarker faults)
  addHandler { cipher := some (← addCipher h.cipher), marker := h.marker }

def forceLazy (i : Nat) (faults : KeyFile.Faults) : Work Nat := do
  let l ← entry lazies i
  let (h, handler) ← l.handler.get (build l)
  modify fun s => { s with lazies := s.lazies.set i { l with handler } }
  return h
where
  build (l : LazyHandler) : Work Nat :=
    match l.store with
    | some store => handlerOfStore store faults
    | none => refuse .incapable

/-- A lazy handler for a store; whether it is one shows when the handler is asked for. -/
def makeLazy (name : String) : Work Nat := do
  match ← heldAt name with
  | .store i => addLazy { store := some i, handler := {} }
  | _ => addLazy { store := none, handler := {} }

/-- Stores share their locks by what they lock; each lazy handler has its own. -/
def sameLock (a b : String) : Work Bool := do
  match ← heldAt a, ← heldAt b with
  | .store i, .store j => return (← storeAt i).lock = (← storeAt j).lock
  | .lazy i, .lazy j => return i = j
  | .store _, .lazy _ | .lazy _, .store _ => return false
  | _, _ => refuse .incapable

/-- The elements without repetition, in some order. -/
def distinct {α : Type} [DecidableEq α] (as : List α) : List α :=
  as.foldr (fun a rest => if a ∈ rest then rest else a :: rest) []

def inOrder (keys : List Bytes) : List Bytes :=
  keys.mergeSort fun a b => a ≤ b

/-- One caller after the other, each dealt the next of the names. -/
def dealt (names : List Nat) (callers : Nat) : List Nat :=
  (List.range callers).filterMap fun i => names[i % names.length]?

def crowdAtStores (stores : List Nat) (callers : Nat) : Work (List Bytes) := do
  let s ← get
  let crowd : Crowd :=
    { callers := (dealt stores callers).map fun store => { store }
      stores := s.stores
      held := []
      world := s.world }
  let crowd := crowd.run (Crowd.inTurn callers)
  set { s with stores := crowd.stores, world := crowd.world }
  crowd.results.mapM fun
    | .ok key => return key
    | .error a => throw (.abort a)

def concurrentStores (stores : List Nat) (callers : Nat) : Work Reply := do
  let keys := distinct (← crowdAtStores stores callers)
  return .crowd keys.length (inOrder keys)

/-- Every caller has its try, whatever becomes of the others. -/
def concurrentLazies (lazies : List Nat) (callers : Nat) : Work Reply := do
  let results ← (dealt lazies callers).mapM fun i => (forceLazy i {}).observe
  let handlers ← results.mapM Work.conclude
  return .crowd (distinct handlers).length []

def concurrent (names : List String) (callers : Nat) : Work Reply := do
  match (← get).held? (names.headD "") with
  | some (.lazy _) => concurrentLazies (← names.mapM lazyNamed) callers
  | _ => concurrentStores (← names.mapM storeNamed) callers

def sameHeld : Held → Held → Bool
  | .value v i, .value w j =>
    i = j && (decide (i ≠ .constant) || v.typeName = w.typeName && v.equals w)
  | .cipher i, .cipher j | .handler i, .handler j | .store i, .store j | .lazy i, .lazy j => i = j
  | _, _ => false

def same (a b : String) : Work Bool := do
  let h ← heldAt a
  let h' ← heldAt b
  return a = b || sameHeld h h'

end Strongbox.Session
