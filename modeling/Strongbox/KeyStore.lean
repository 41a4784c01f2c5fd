import Strongbox.Handler
import Strongbox.KeyFile

/-!
Key stores: the key of one file, loaded on first use and kept from then on. A failed load leaves
the store as it was, so that the next call tries again; callers only ever get copies.
-/

namespace Strongbox

structure KeyStore where
  path : Path
  /-- Whether the process gives up when the key cannot be had. -/
  fatal : Bool
  /-- Stores with equal locks take turns. -/
  lock : Location
  key : Option Bytes
deriving DecidableEq

/-- A store together with the world it works in. -/
structure Custody where
  store : KeyStore
  world : World

abbrev StoreAction := ExceptT Abort (StateM Custody)

/-- An action on the world beside a store. -/
def Action.inCustody {α : Type} (a : Action α) : StoreAction α :=
  ExceptT.mk fun c =>
    let (result, world) := StateT.run (ExceptT.run a) c.world
    (result, { c with world })

namespace KeyStore

/-- A store is known by where its path leads when it is made. -/
def make (path : Path) (fatal : Bool) : Action KeyStore := do
  match (← get).files.canonical path with
  | .ok lock => return { path, fatal, lock, key := none }
  | .error m => throw (.misuse m)

def isLoaded (s : KeyStore) : Bool :=
  s.key.isSome

/-- Reads or makes the key file, without regard to what the store holds. -/
def fetch (s : KeyStore) (faults : KeyFile.Faults) : Action Bytes :=
  if s.fatal then KeyFile.ensureOrExit s.path faults else KeyFile.ensure s.path faults

/-- The key, from the file the first time. -/
def load (faults : KeyFile.Faults) : StoreAction Bytes := do
  let s := (← get).store
  match s.key with
  | some key => return key
  | none =>
    let key ← (s.fetch faults).inCustody
    modify fun c => { c with store := { c.store with key := some key } }
    return key

/-- A handler for the key of the store, which must be of the right length. -/
def handler (marker : String) (faults : KeyFile.Faults) : StoreAction Handler := do
  let key ← load faults
  match Cipher.ofKeyBytes key with
  | .ok cipher => (Handler.make cipher marker).inWorld.inCustody
  | .error f => throw (.failure f)

end KeyStore

/-- Something that is built on first use, once; a failed attempt leaves it unbuilt. -/
structure Lazily (α : Type) where
  built : Option α := none

namespace Lazily

variable {α : Type} {m : Type → Type} [Monad m]

def get (l : Lazily α) (build : m α) : m (α × Lazily α) :=
  match l.built with
  | some a => return (a, l)
  | none => do
    let a ← build
    return (a, ⟨some a⟩)

end Lazily

end Strongbox
