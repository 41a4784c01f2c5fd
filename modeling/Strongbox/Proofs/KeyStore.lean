import Strongbox.KeyStore
import Strongbox.Proofs.KeyFile
import Strongbox.Proofs.Keys.Material
import Strongbox.Proofs.Silence

/-! # Getting the key from a store

A store that has its key answers from it. One that has none goes to the key file each time, and
what goes wrong there is of one kind for a fatal store and of another for one that is not. -/

namespace Strongbox

namespace KeyFile

variable {path : Path} {faults : Faults}

/-- How a run without a result ends: the file is not usable, or no file can have the path. -/
inductive Failing (path : Path) : Abort → Prop
  | unusable (e : SystemError) : Failing path (.failure (.keyStore (toString path) e))
  | nul (h : path.hasNul = true) : Failing path (.misuse .nulInPath)

/-- A move that ends a run, if at all, with a result or with a failure of these. -/
def Move.Proper (path : Path) (m : Move) : Prop :=
  ∀ a, m = .ended (.error a) → Failing path a

namespace Move.Proper

theorem next (s : Stage) : (Move.next s).Proper path :=
  nofun

theorem ended (octets : Bytes) : (Move.ended (.ok octets)).Proper path :=
  nofun

theorem unusable (e : SystemError) : (Move.unusable path e).Proper path := by
  intro a h
  obtain rfl := Except.error.inj (Move.ended.inj h)
  exact .unusable e

theorem misused (h : path.hasNul = true) : (Move.misused .nulInPath).Proper path := by
  intro a ha
  obtain rfl := Except.error.inj (Move.ended.inj ha)
  exact .nul h

theorem interrupted {i : Interruption} (hi : ∀ f, i ≠ .foreign f) :
    (Move.interrupted i).Proper path := by
  cases i with
  | system e => exact next _
  | foreign f => exact absurd rfl (hi f)

end Move.Proper

theorem hasNul_of_parent (h : path.parent.hasNul = true) : path.hasNul = true := by
  cases hnul : path.hasNul with
  | true => rfl
  | false =>
      rw [path.parent_reaches.hasNul hnul] at h
      cases h

theorem advance_proper (hsystem : faults.Systemic) (s : Stage) (w : World) :
    (advance path faults s w).1.Proper path := by
  cases s with
  | parents =>
      rw [advance, makeParents]
      split
      · rename_i hnul
        exact .misused (hasNul_of_parent hnul)
      · split
        · exact .unusable _
        · split
          · exact .next _
          · exact .unusable _
  | check =>
      rw [advance, lookForFile]
      split
      · exact .unusable _
      · split
        · exact .next _
        · exact .next _
        · exact .unusable _
  | load =>
      rw [advance, loadFile]
      split
      · exact .unusable _
      · split
        · exact .ended _
        · exact .unusable _
  | draw =>
      rw [advance, drawSecret]
      split
      · exact .unusable _
      · exact .next _
  | create secret =>
      rw [advance, createFile]
      split
      · rename_i hnul
        exact .misused hnul
      · split
        · exact .next _
        · exact .unusable _
  | stream secret file =>
      rw [advance, openStream]
      split
      · rename_i i hi
        exact .interrupted fun f heq => hsystem.stream f (heq ▸ hi)
      · exact .next _
  | write secret file =>
      rw [advance, writeSecret]
      split
      · rename_i kept i hi
        exact .interrupted fun f heq => hsystem.write kept f (heq ▸ hi)
      · exact .next _
  | close secret =>
      rw [advance, closeStream]
      split
      · rename_i i hi
        exact .interrupted fun f heq => hsystem.close f (heq ▸ hi)
      · exact .next _
  | discard cause =>
      rw [advance, discardPartial]
      split <;> exact .unusable _
  | harden secret =>
      rw [advance, hardenFile]
      split <;> exact .ended _

theorem failing_of_finish (hsystem : faults.Systemic) {s : Stage} {w w' : World} {a : Abort}
    (h : finish path faults s w = (.error a, w')) : Failing path a := by
  fun_induction finish path faults s w with
  | case1 s w result hended =>
      obtain ⟨rfl, -⟩ := Prod.mk.inj h
      exact advance_proper hsystem s w a hended
  | case2 s w s' hnext _ ih => exact ih h

/-! ## The start of a process -/

/-- What the start of a process logs when the file is not usable. -/
def report (path : Path) (e : SystemError) : String :=
  s!"ERROR: secret file: Secret file {path} is not usable: {e.text}"

variable {w w' : World}

theorem lead_ensureOrExit_of_ok {octets : Bytes}
    (h : lead (ensure path faults) w = (.ok octets, w')) :
    lead (ensureOrExit path faults) w = (.ok octets, w') := by
  rw [ensureOrExit, lead_tryCatch, h]

theorem lead_ensureOrExit_of_unusable {e : SystemError}
    (h : lead (ensure path faults) w = (.error (.failure (.keyStore (toString path) e)), w')) :
    lead (ensureOrExit path faults) w =
      (.error (.exit (.keyStore (toString path) e)), w'.record .error (report path e)) := by
  rw [ensureOrExit, lead_tryCatch, h]
  rfl

theorem lead_ensureOrExit_of_misuse {m : Misuse}
    (h : lead (ensure path faults) w = (.error (.misuse m), w')) :
    lead (ensureOrExit path faults) w = (.error (.misuse m), w') := by
  rw [ensureOrExit, lead_tryCatch, h]
  rfl

end KeyFile

theorem FileTree.canonical_of_toOption {t : FileTree} {p : Path} {l : Location}
    (h : (t.canonical p).toOption = some l) : t.canonical p = .ok l := by
  cases hled : t.canonical p with
  | ok l' =>
      rw [hled] at h
      rw [Option.some.inj h]
  | error m =>
      rw [hled] at h
      cases h

namespace KeyStore

variable {faults : KeyFile.Faults}

/-- A store is known by the canonical location of its path, and it is made without its key. -/
theorem lead_make {path : Path} {lock : Location} {w : World}
    (h : w.files.canonical path = .ok lock) (fatal : Bool) :
    lead (make path fatal) w = (.ok { path, fatal, lock, key := none }, w) := by
  rw [make, lead_bind, lead_get]
  simp only [h, lead_pure]

theorem canonical_of_lead_make {path : Path} {fatal : Bool} {s : KeyStore} {w w' : World}
    (h : lead (make path fatal) w = (.ok s, w')) :
    w.files.canonical path = .ok s.lock ∧ s.key = none := by
  cases hcanonical : w.files.canonical path with
  | ok lock =>
      rw [lead_make hcanonical] at h
      obtain rfl := Except.ok.inj (Prod.mk.inj h).1
      exact ⟨rfl, rfl⟩
  | error m =>
      rw [make, lead_bind, lead_get] at h
      simp only [hcanonical, lead_throw] at h
      cases (Prod.mk.inj h).1

/-- How a load that comes to nothing ends: a fatal store gives up the process, any other reports
that the file is not usable, and a path that no file can have is refused by both. -/
inductive LoadFailure (s : KeyStore) : Abort → Prop
  | exit (e : SystemError) (h : s.fatal = true) :
      LoadFailure s (.exit (.keyStore (toString s.path) e))
  | failure (e : SystemError) (h : s.fatal = false) :
      LoadFailure s (.failure (.keyStore (toString s.path) e))
  | nul (h : s.path.hasNul = true) : LoadFailure s (.misuse .nulInPath)

theorem loadFailure_of_fetch (hsystem : faults.Systemic) {s : KeyStore} {w w' : World} {a : Abort}
    (h : lead (s.fetch faults) w = (.error a, w')) : LoadFailure s a := by
  have hfailing : ∀ a₁ w₁, lead (KeyFile.ensure s.path faults) w = (.error a₁, w₁) →
      KeyFile.Failing s.path a₁ := fun _ _ hfinish => KeyFile.failing_of_finish hsystem hfinish
  rw [fetch] at h
  cases hfatal : s.fatal with
  | false =>
      rw [hfatal] at h
      cases hfailing a w' h with
      | unusable e => exact .failure e hfatal
      | nul hnul => exact .nul hnul
  | true =>
      rw [hfatal, if_pos rfl] at h
      rcases hled : lead (KeyFile.ensure s.path faults) w with ⟨a₁ | octets, w₁⟩
      · cases hfailing a₁ w₁ hled with
        | unusable e =>
            rw [KeyFile.lead_ensureOrExit_of_unusable hled] at h
            obtain rfl := Except.error.inj (Prod.mk.inj h).1
            exact .exit e hfatal
        | nul hnul =>
            rw [KeyFile.lead_ensureOrExit_of_misuse hled] at h
            obtain rfl := Except.error.inj (Prod.mk.inj h).1
            exact .nul hnul
      · rw [KeyFile.lead_ensureOrExit_of_ok hled] at h
        cases (Prod.mk.inj h).1

/-! ## What a load comes to -/

/-- The key that is kept, or else what the key file gives. -/
def obtain (s : KeyStore) (faults : KeyFile.Faults) (w : World) : Except Abort Bytes × World :=
  match s.key with
  | some key => (.ok key, w)
  | none => lead (s.fetch faults) w

/-- Only a store without a key can fail to get it. -/
theorem fetch_of_obtain_error {s : KeyStore} {w w' : World} {a : Abort}
    (h : s.obtain faults w = (.error a, w')) :
    s.key = none ∧ lead (s.fetch faults) w = (.error a, w') := by
  rw [obtain] at h
  cases hkey : s.key with
  | some key =>
      rw [hkey] at h
      cases (Prod.mk.inj h).1
  | none =>
      rw [hkey] at h
      exact ⟨rfl, h⟩

/-- The store after a load that came to this. -/
def after (s : KeyStore) : Except Abort Bytes → KeyStore
  | .ok key => { s with key := some key }
  | .error _ => s

theorem lead_load (faults : KeyFile.Faults) (c : Custody) :
    lead (load faults) c =
      ((c.store.obtain faults c.world).1,
        ⟨c.store.after (c.store.obtain faults c.world).1, (c.store.obtain faults c.world).2⟩) := by
  obtain ⟨⟨path, fatal, lock, key⟩, w⟩ := c
  rw [load, lead_bind, lead_get]
  cases key with
  | some key => rfl
  | none =>
      let s : KeyStore := ⟨path, fatal, lock, none⟩
      have hcustody : lead (s.fetch faults).inCustody ⟨s, w⟩ =
          ((lead (s.fetch faults) w).1, ⟨s, (lead (s.fetch faults) w).2⟩) := rfl
      simp only [obtain, lead_bind]
      rw [hcustody]
      obtain ⟨r, w'⟩ := lead (s.fetch faults) w
      cases r <;> rfl

/-! ## Handlers -/

variable {marker : String} {c : Custody} {w : World} {key : Bytes} {a : Abort}

theorem lead_handler_of_error (h : c.store.obtain faults c.world = (.error a, w)) :
    lead (handler marker faults) c = (.error a, ⟨c.store, w⟩) := by
  rw [handler, lead_bind, lead_load, h]
  rfl

/-- The key is kept all the same. -/
theorem lead_handler_of_length_ne (h : c.store.obtain faults c.world = (.ok key, w))
    (hlen : key.length ≠ 32) :
    lead (handler marker faults) c =
      (.error (.failure (.keyLength key.length)), ⟨{ c.store with key := some key }, w⟩) := by
  rw [handler, lead_bind, lead_load, h]
  dsimp only
  rw [Cipher.ofKeyBytes_of_length_ne hlen]
  rfl

theorem lead_handler_of_length (h : c.store.obtain faults c.world = (.ok key, w))
    (hlen : key.length = 32) :
    lead (handler marker faults) c =
      (.ok ⟨{ key := ⟨key, hlen⟩ }, marker⟩,
        ⟨{ c.store with key := some key }, w.record .debug "CryptoHandler()"⟩) := by
  rw [handler, lead_bind, lead_load, h]
  dsimp only
  rw [Cipher.ofKeyBytes_of_length hlen]
  rfl

end KeyStore

end Strongbox
