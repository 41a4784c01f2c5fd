import Strongbox.KeyStore
import Strongbox.Session.Operation

/-!
The state of a session: ciphers, handlers, stores and lazy handlers by their numbers, what the
names stand for, and the world. Numbers are never given twice, and what has a number is shared by
all that refer to it.
-/

namespace Strongbox

/-- What tells values apart that may be equal. -/
inductive Identity
  /-- A value made by an operation, by its number. -/
  | made (i : Nat)
  /-- What a store hands out again and again. -/
  | keyOf (store : Nat)
  | pathOf (store : Nat)
  /-- A name that makes up a whole path, of which one copy is kept for all such paths. -/
  | nameOf (name : String)
  /-- One of the constants, of which there is only one copy; its contents tell which. -/
  | constant
deriving DecidableEq

/-- What a name stands for. -/
inductive Held
  | value (v : Value) (identity : Identity)
  | cipher (i : Nat)
  | handler (i : Nat)
  | store (i : Nat)
  | lazy (i : Nat)

namespace Held

def asValue : Held → Value
  | value v _ => v
  | cipher i => .thing .cipher i
  | handler i => .thing .handler i
  | store i => .thing .store i
  | lazy i => .thing .lazyHandler i

end Held

/-- A handler whose cipher may have other handlers as well. It has none if it was made for
something that is no cipher. -/
structure SharedHandler where
  cipher : Option Nat
  marker : String

/-- A handler of a store, to be made when it is first asked for. There is no store if something
else was given for one. -/
structure LazyHandler where
  store : Option Nat
  handler : Lazily Nat

structure Session where
  names : List (String × Held) := []
  /-- How many values have been made. -/
  made : Nat := 0
  ciphers : List Cipher := []
  handlers : List SharedHandler := []
  stores : List KeyStore := []
  lazies : List LazyHandler := []
  world : World

abbrev Work := ExceptT Stop (StateM Session)

/-- An action on the world of a session. -/
def Action.inSession {α : Type} (a : Action α) : Work α :=
  ExceptT.mk fun s =>
    let (result, world) := StateT.run (ExceptT.run a) s.world
    (result.mapError .abort, { s with world })

def Task.inSession {α : Type} (t : Task α) : Work α :=
  t.inWorld.inSession

/-- What some work leads to, so that more can be done after it in any case. -/
def Work.observe {α : Type} (w : Work α) : Work (Except Stop α) :=
  ExceptT.mk fun s =>
    let (result, s) := StateT.run (ExceptT.run w) s
    (.ok result, s)

/-- The observed result, or the stop that came instead. -/
def Work.conclude {α : Type} : Except Stop α → Work α
  | .ok a => return a
  | .error s => throw s

namespace Session

def held? (s : Session) (name : String) : Option Held :=
  s.names.lookup name

/-- The entry under a number. -/
def entry {α : Type} (entries : Session → List α) (i : Nat) : Work α := do
  match (entries (← get))[i]? with
  | some a => return a
  | none => throw (.unbound s!"#{i}")

def valueNamed? (s : Session) (name : String) : Option Value :=
  (s.held? name).map Held.asValue

/-- What no thing of its kind can do comes to nothing. -/
def refuse {α : Type} (m : Misuse) : Work α :=
  throw (.abort (.misuse m))

/-- Values that are nested deeper than this can be neither given nor shown. -/
def depthLimit : Nat := 980

def resolve (t : Term) : Work Value := do
  match t.value (← get).valueNamed? with
  | .ok v => if depthLimit < v.depth then refuse .tooDeep else return v
  | .error name => throw (.unbound name)

/-- A value that is to be shown. -/
def shown (v : Value) : Work Value :=
  if !v.isData then refuse .notData
  else if depthLimit < v.depth then refuse .tooDeep
  else return v

def resolveAll (ts : List Term) : Work (List Value) :=
  ts.mapM resolve

def resolveEntries (entries : List (String × Term)) : Work (Dictionary Value) := do
  let resolved : List (String × Value) ← entries.mapM fun (k, t) => return (k, ← resolve t)
  return Dictionary.ofList resolved

/-- Small values, of which there is only one copy however they come about. -/
def isConstant : Value → Bool
  | .null | .bool _ => true
  | .int n => -5 ≤ n ∧ n ≤ 256
  | .text s => s.length ≤ 1 ∧ s.toList.all fun c => c.toNat < 256
  | .bytes .fixed bs => bs.isEmpty
  | _ => false

/-- A single octet is one of the constants if it is written down, but not if it has been read. -/
def isWrittenConstant : Value → Bool
  | .bytes .fixed bs => bs.length ≤ 1
  | v => isConstant v

/-- A value with an identity, unless it is a constant. -/
def identified (v : Value) (identity : Identity) : Held :=
  .value v (if isConstant v then .constant else identity)

/-- A value that has just been made. -/
def newValue (v : Value) : Work Held :=
  modifyGet fun s =>
    (identified (v.labelled s.made) (.made s.made), { s with made := s.made + 1 })

def heldAt (name : String) : Work Held := do
  match (← get).held? name with
  | some h => return h
  | none => throw (.unbound name)

/-- A value that has been handed back as it was handed in. -/
def sameValue (t : Term) (v : Value) : Work Held := do
  match t with
  | .named name => heldAt name
  | _ => if isWrittenConstant v then return .value v .constant else newValue v

def storeNamed (name : String) : Work Nat := do
  match ← heldAt name with
  | .store i => return i
  | _ => refuse .incapable

def lazyNamed (name : String) : Work Nat := do
  match ← heldAt name with
  | .lazy i => return i
  | _ => refuse .incapable

def addCipher (c : Cipher) : Work Nat :=
  modifyGet fun s => (s.ciphers.length, { s with ciphers := s.ciphers ++ [c] })

def addHandler (h : SharedHandler) : Work Nat :=
  modifyGet fun s => (s.handlers.length, { s with handlers := s.handlers ++ [h] })

def addStore (k : KeyStore) : Work Nat :=
  modifyGet fun s => (s.stores.length, { s with stores := s.stores ++ [k] })

def addLazy (l : LazyHandler) : Work Nat :=
  modifyGet fun s => (s.lazies.length, { s with lazies := s.lazies ++ [l] })

end Session

end Strongbox
