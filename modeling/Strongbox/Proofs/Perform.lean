import Strongbox.World

/-! # Performing operations

An operation that may end early, performed from a state, gives its result and the state it leaves.
The equations below are the only way in: proofs about operations never open the monads. -/

namespace Strongbox

variable {σ α β : Type}

/-- The result of an operation and the state after it, also when it ends early. -/
def perform (m : ExceptT Abort (StateM σ) α) (s : σ) : Except Abort α × σ :=
  StateT.run (ExceptT.run m) s

@[simp] theorem perform_pure (a : α) (s : σ) :
    perform (pure a : ExceptT Abort (StateM σ) α) s = (.ok a, s) :=
  rfl

@[simp] theorem perform_throw (e : Abort) (s : σ) :
    perform (throw e : ExceptT Abort (StateM σ) α) s = (.error e, s) :=
  rfl

/-- What follows is performed only if the first part did not end early. -/
@[simp] theorem perform_bind (m : ExceptT Abort (StateM σ) α)
    (f : α → ExceptT Abort (StateM σ) β) (s : σ) :
    perform (m >>= f) s =
      match perform m s with
      | (.ok a, s') => perform (f a) s'
      | (.error e, s') => (.error e, s') := by
  change (ExceptT.bindCont f (m s).1 : StateM σ _) (m s).2 = _
  change _ = match m s with
    | (.ok a, s') => perform (f a) s'
    | (.error e, s') => (.error e, s')
  obtain ⟨_ | _, _⟩ := m s <;> rfl

@[simp] theorem perform_map (f : α → β) (m : ExceptT Abort (StateM σ) α) (s : σ) :
    perform (f <$> m) s = ((perform m s).1.map f, (perform m s).2) := by
  rw [← bind_pure_comp, perform_bind]
  obtain ⟨_ | _, _⟩ := perform m s <;> rfl

/-- An early end is handed over together with the state that it leaves. -/
theorem perform_tryCatch (m : ExceptT Abort (StateM σ) α)
    (f : Abort → ExceptT Abort (StateM σ) α) (s : σ) :
    perform (tryCatch m f) s =
      match perform m s with
      | (.ok a, s') => (.ok a, s')
      | (.error e, s') => perform (f e) s' := by
  change (ExceptT.tryCatch m f : ExceptT Abort (StateM σ) α) s = _
  cases h : perform m s with
  | mk r s' =>
      have hled : m s = (r, s') := h
      cases r <;>
        simp only [ExceptT.tryCatch, ExceptT.mk, StateT.bind, bind, hled] <;>
        rfl

namespace Task

@[simp] theorem perform_fail (f : Failure) (a : Ambient) :
    perform (fail f : Task α) a = (.error (.failure f), a) :=
  rfl

@[simp] theorem perform_log (level : Level) (message : String) (a : Ambient) :
    perform (log level message) a = (.ok (), a.record level message) :=
  rfl

@[simp] theorem perform_draw (size : Nat) (a : Ambient) :
    perform (draw size) a =
      (.ok (a.entropy.draw size).1, { a with entropy := (a.entropy.draw size).2 }) :=
  rfl

end Task

end Strongbox
