import Mathlib.Data.List.Forall2
import Strongbox.Handler
import Strongbox.Proofs.Perform

/-! # Results that do not depend on the state

A task that reads neither the random source nor the log gives the same result wherever it is
performed, or none anywhere. All decryption is of this kind: the rules below, one for each way of
building tasks, show it without looking at what is decrypted. -/

namespace Strongbox

namespace Task

variable {α β : Type} {t : Task α} {f : α → Task β} {x : α} {y : β}

/-- The task gives this result in every state, and leaves the state as it is. -/
def Yields (t : Task α) (x : α) : Prop :=
  ∀ a, perform t a = (.ok x, a)

/-- What the task gives in one state it gives in every state. -/
def Steady (t : Task α) : Prop :=
  ∀ a x a', perform t a = (.ok x, a') → t.Yields x ∧ a' = a

theorem yields_pure (x : α) : Yields (pure x : Task α) x :=
  fun _ => rfl

theorem Yields.bind (ht : t.Yields x) (hf : (f x).Yields y) : (t >>= f).Yields y := by
  intro a
  rw [perform_bind, ht a]
  exact hf a

/-! ## Rules -/

theorem steady_pure (x : α) : Steady (pure x : Task α) := by
  intro a x' a' h
  obtain ⟨hx, rfl⟩ := Prod.mk.inj h
  obtain rfl := Except.ok.inj hx
  exact ⟨yields_pure x, rfl⟩

theorem steady_throw (e : Abort) : Steady (throw e : Task α) := by
  intro a x a' h
  cases (Prod.mk.inj h).1

/-- A failure that has been logged is no result. -/
theorem steady_log_fail (level : Level) (message : String) (e : Failure) :
    Steady (do Task.log level message; Task.fail e : Task α) := by
  intro a x a' h
  rw [perform_bind, perform_log] at h
  cases (Prod.mk.inj h).1

/-- A sequence comes to a result only if both its parts do. -/
theorem perform_bind_eq_ok_iff {a a' : Ambient} :
    perform (t >>= f) a = (.ok y, a') ↔
      ∃ x a₁, perform t a = (.ok x, a₁) ∧ perform (f x) a₁ = (.ok y, a') := by
  rw [perform_bind]
  cases perform t a with
  | mk r a₁ => cases r <;> simp

theorem Steady.bind (ht : t.Steady) (hf : ∀ x, (f x).Steady) : (t >>= f).Steady := by
  intro a y a' h
  obtain ⟨x, a₁, hfirst, hthen⟩ := perform_bind_eq_ok_iff.mp h
  obtain ⟨hx, rfl⟩ := ht a x a₁ hfirst
  obtain ⟨hy, rfl⟩ := hf x a₁ y a' hthen
  exact ⟨hx.bind hy, rfl⟩

/-- Done one after the other, tasks give their results side by side. -/
theorem forall₂_of_mapM (hf : ∀ x, (f x).Steady) {xs : List α} {ys : List β} {a a' : Ambient}
    (h : perform (xs.mapM f) a = (.ok ys, a')) :
    List.Forall₂ (fun x y => (f x).Yields y) xs ys := by
  induction xs generalizing a a' ys with
  | nil =>
      obtain rfl := Except.ok.inj (Prod.mk.inj h).1
      exact .nil
  | cons x xs ih =>
      rw [List.mapM_cons] at h
      obtain ⟨y, a₁, hfirst, h⟩ := perform_bind_eq_ok_iff.mp h
      obtain ⟨rest, a₂, hrest, h⟩ := perform_bind_eq_ok_iff.mp h
      obtain rfl := Except.ok.inj (Prod.mk.inj h).1
      exact .cons (hf x a y a₁ hfirst).1 (ih hrest)

theorem yields_mapM {xs : List α} {ys : List β}
    (h : List.Forall₂ (fun x y => (f x).Yields y) xs ys) : Yields (xs.mapM f) ys := by
  induction h with
  | nil => exact yields_pure []
  | @cons x y xs ys hy _ ih =>
      rw [List.mapM_cons]
      exact hy.bind (ih.bind (yields_pure (y :: ys)))

/-- Of several tasks, all come to a result, or one is the first that does not. -/
theorem forall_yields_or_first_error (hf : ∀ x, (f x).Steady) (xs : List α) (a : Ambient) :
    (∀ x ∈ xs, ∃ y, (f x).Yields y) ∨
      ∃ front x back e a', xs = front ++ x :: back ∧ (∀ x ∈ front, ∃ y, (f x).Yields y) ∧
        perform (f x) a = (.error e, a') := by
  induction xs with
  | nil => exact .inl nofun
  | cons x xs ih =>
      cases hled : perform (f x) a with
      | mk r a₁ =>
          cases r with
          | error e => exact .inr ⟨[], x, xs, e, a₁, rfl, nofun, hled⟩
          | ok y =>
              have hx : ∃ y, (f x).Yields y := ⟨y, (hf x a y a₁ hled).1⟩
              obtain hxs | ⟨front, x', back, e, a', rfl, hfront, hx'⟩ := ih
              · exact .inl (List.forall_mem_cons.mpr ⟨hx, hxs⟩)
              · exact .inr ⟨x :: front, x', back, e, a', rfl,
                  List.forall_mem_cons.mpr ⟨hx, hfront⟩, hx'⟩

/-- The first task that comes to no result ends the sequence. -/
theorem perform_mapM_of_error {front back : List α} {e : Abort} {a a' : Ambient}
    (hfront : ∀ x ∈ front, ∃ y, (f x).Yields y) (hx : perform (f x) a = (.error e, a')) :
    perform ((front ++ x :: back).mapM f) a = (.error e, a') := by
  induction front with
  | nil => rw [List.nil_append, List.mapM_cons, perform_bind, hx]
  | cons x' front ih =>
      obtain ⟨⟨y, hy⟩, hfront⟩ := List.forall_mem_cons.mp hfront
      rw [List.cons_append, List.mapM_cons, perform_bind, hy a]
      dsimp only
      rw [perform_bind, ih hfront]

end Task

/-! ## Decryption -/

namespace Cipher

variable (c : Cipher)

theorem steady_decryptBytes (envelope : Bytes) : (c.decryptBytes envelope).Steady := by
  unfold decryptBytes
  split
  · exact Task.steady_pure _
  · split
    · exact Task.steady_log_fail _ _ _
    · exact Task.steady_throw _

theorem steady_decrypt (v : Value) : (c.decrypt v).Steady := by
  unfold decrypt
  split
  · exact Task.steady_throw _
  · split
    · exact Task.steady_throw _
    · split
      · exact Task.steady_throw _
      · exact c.steady_decryptBytes _

theorem steady_decryptText (v : Value) : (c.decryptText v).Steady := by
  unfold decryptText
  split
  · exact Task.steady_throw _
  · exact Task.steady_throw _
  · refine (c.steady_decrypt _).bind fun plaintext => ?_
    split
    · exact Task.steady_pure _
    · exact Task.steady_throw _

end Cipher

end Strongbox
