import Strongbox.KeyStore

/-!
Several callers that ask stores for their keys at the same time. Each goes through stages of its
own, in any order of turns: it looks at the store, takes the lock that stores of one file share,
looks again, reads or makes the key file stage by stage, keeps the key and gives the lock back.
-/

namespace Strongbox

inductive CallerStage
  | peek
  | acquire
  | recheck
  | fetch (s : KeyFile.Stage)
  | keep (result : Except Abort Bytes)
  | release (result : Except Abort Bytes)
  | ended (result : Except Abort Bytes)

/-- A caller of one of the stores, with the faults that its own work meets. -/
structure Caller where
  store : Nat
  faults : KeyFile.Faults := {}
  stage : CallerStage := .peek

/-- The callers, what they share, and the locks that are taken. -/
structure Crowd where
  callers : List Caller
  stores : List KeyStore
  held : List Location
  world : World

namespace Crowd

/-- What becomes of a failure to fetch the key: a fatal store gives up the process. -/
def escalate (s : KeyStore) (result : Except Abort Bytes) (w : World) :
    Except Abort Bytes × World :=
  match result with
  | .error (.failure f) =>
    if s.fatal then
      (.error (.exit f), w.record .error s!"ERROR: secret file: {f.message}")
    else (result, w)
  | _ => (result, w)

/-- The next stage of a caller at a store, with the store, the locks and the world after it. -/
def act (c : Caller) (s : KeyStore) (held : List Location) (w : World) :
    CallerStage × KeyStore × List Location × World :=
  match c.stage with
  | .peek =>
    match s.key with
    | some key => (.ended (.ok key), s, held, w)
    | none => (.acquire, s, held, w)
  | .acquire =>
    if held.any fun l => l = s.lock then (.acquire, s, held, w) else (.recheck, s, s.lock :: held, w)
  | .recheck =>
    match s.key with
    | some key => (.release (.ok key), s, held, w)
    | none => (.fetch .parents, s, held, w)
  | .fetch stage =>
    match KeyFile.advance s.path c.faults stage w with
    | (.next stage, w) => (.fetch stage, s, held, w)
    | (.ended result, w) =>
      let (result, w) := escalate s result w
      (.keep result, s, held, w)
  | .keep result =>
    match result with
    | .ok key => (.release result, { s with key := some key }, held, w)
    | .error _ => (.release result, s, held, w)
  | .release result => (.ended result, s, held.filter fun l => !decide (l = s.lock), w)
  | .ended result => (.ended result, s, held, w)

/-- The turn of one caller. -/
def turn (crowd : Crowd) (i : Nat) : Crowd :=
  match crowd.callers[i]? with
  | none => crowd
  | some c =>
    match crowd.stores[c.store]? with
    | none => crowd
    | some s =>
      let (stage, s, held, world) := act c s crowd.held crowd.world
      { callers := crowd.callers.set i { c with stage }
        stores := crowd.stores.set c.store s
        held
        world }

def run (crowd : Crowd) (turns : List Nat) : Crowd :=
  turns.foldl turn crowd

/-- The turns that a caller needs at most when nobody holds it up. -/
def ample : Nat := 16

/-- One caller after the other, each to its end. -/
def inTurn (count : Nat) : List Nat :=
  (List.range count).flatMap fun i => List.replicate ample i

def results (crowd : Crowd) : List (Except Abort Bytes) :=
  crowd.callers.filterMap fun c =>
    match c.stage with
    | .ended result => some result
    | _ => none

end Crowd

end Strongbox
