import Strongbox.Proofs.Secrecy.Outline
import Strongbox.Proofs.Perform

/-! # Two operations side by side

Two operations, performed from states that are alike, match if they end early in the same way or both
come to results that are related, and leave states that are alike. Secrets are what the states and
the results may differ in. The rules, one for each way of building operations, show it without
performing them. -/

namespace Strongbox

/-- Results that match: the same early end, or related values. -/
inductive Matching {α β : Type} (R : α → β → Prop) : Except Abort α → Except Abort β → Prop
  | ok {x : α} {y : β} (h : R x y) : Matching R (.ok x) (.ok y)
  | error (e : Abort) : Matching R (.error e) (.error e)

/-- Nothing is said about the results but that both are there. -/
abbrev Unrelated {α β : Type} (_ : α) (_ : β) : Prop := True

/-- Byte strings of one length. -/
abbrev SameLength (a b : Bytes) : Prop := a.length = b.length

/-- From states in relation `S`, two operations come to results in relation `R` or end alike, and
leave states in relation `S`. -/
def Paired {σ τ α β : Type} (S : σ → τ → Prop) (R : α → β → Prop) (m : ExceptT Abort (StateM σ) α)
    (m' : ExceptT Abort (StateM τ) β) : Prop :=
  ∀ s s', S s s' →
    Matching R (perform m s).1 (perform m' s').1 ∧ S (perform m s).2 (perform m' s').2

namespace Matching

theorem eq_of_matching {α : Type} {r r' : Except Abort α} (h : Matching (· = ·) r r') : r = r' := by
  cases h with
  | ok h => rw [h]
  | error e => rfl

end Matching

namespace Paired

variable {σ τ α β γ δ : Type} {S : σ → τ → Prop} {R : α → β → Prop} {Q : γ → δ → Prop}
  {m : ExceptT Abort (StateM σ) α} {m' : ExceptT Abort (StateM τ) β}

/-! ## Rules -/

theorem pure {x : α} {y : β} (h : R x y) :
    Paired S R (pure x : ExceptT Abort (StateM σ) α) (pure y : ExceptT Abort (StateM τ) β) :=
  fun _ _ hs => ⟨.ok h, hs⟩

theorem throw (e : Abort) :
    Paired S R (throw e : ExceptT Abort (StateM σ) α) (throw e : ExceptT Abort (StateM τ) β) :=
  fun _ _ hs => ⟨.error e, hs⟩

theorem bind {f : α → ExceptT Abort (StateM σ) γ} {f' : β → ExceptT Abort (StateM τ) δ}
    (hm : Paired S R m m') (hf : ∀ x y, R x y → Paired S Q (f x) (f' y)) :
    Paired S Q (m >>= f) (m' >>= f') := by
  intro s s' hs
  obtain ⟨hr, hs'⟩ := hm s s' hs
  rw [perform_bind, perform_bind]
  generalize perform m s = led at hr hs'
  generalize perform m' s' = led' at hr hs'
  obtain ⟨r, s⟩ := led
  obtain ⟨r', s'⟩ := led'
  cases hr with
  | ok h => exact hf _ _ h s s' hs'
  | error e => exact ⟨.error e, hs'⟩

theorem tryCatch {f : Abort → ExceptT Abort (StateM σ) α} {f' : Abort → ExceptT Abort (StateM τ) β}
    (hm : Paired S R m m') (hf : ∀ e, Paired S R (f e) (f' e)) :
    Paired S R (tryCatch m f) (tryCatch m' f') := by
  intro s s' hs
  obtain ⟨hr, hs'⟩ := hm s s' hs
  rw [perform_tryCatch, perform_tryCatch]
  generalize perform m s = led at hr hs'
  generalize perform m' s' = led' at hr hs'
  obtain ⟨r, s⟩ := led
  obtain ⟨r', s'⟩ := led'
  cases hr with
  | ok h => exact ⟨.ok h, hs'⟩
  | error e => exact hf e s s' hs'

theorem modify {g : σ → σ} {g' : τ → τ} (hg : ∀ s s', S s s' → S (g s) (g' s')) :
    Paired S Unrelated (modify g : ExceptT Abort (StateM σ) PUnit)
      (modify g' : ExceptT Abort (StateM τ) PUnit) :=
  fun s s' hs => ⟨.ok trivial, hg s s' hs⟩

/-- What follows may depend on the states as they are found. -/
theorem get_bind {f : σ → ExceptT Abort (StateM σ) α} {f' : τ → ExceptT Abort (StateM τ) β}
    (hf : ∀ s s', S s s' → Paired S R (f s) (f' s')) : Paired S R (get >>= f) (get >>= f') :=
  fun s s' hs => hf s s' hs s s' hs

end Paired

/-! ## Tasks and actions -/

/-- Random sources may differ; what has been logged may not. -/
def Ambient.Alike (a a' : Ambient) : Prop :=
  a.log = a'.log

/-- The files may differ in what they hold, but not in its size. -/
structure World.Alike (w w' : World) : Prop where
  ambient : w.ambient.Alike w'.ambient
  files : w.files.outline = w'.files.outline

theorem Ambient.Alike.record {a a' : Ambient} (h : a.Alike a') (level : Level) (message : String) :
    (a.record level message).Alike (a'.record level message) := by
  rw [Ambient.Alike] at h
  rw [Ambient.Alike, Ambient.record, Ambient.record, h]

theorem World.Alike.record {w w' : World} (h : w.Alike w') (level : Level) (message : String) :
    (w.record level message).Alike (w'.record level message) :=
  ⟨h.ambient.record level message, h.files⟩

namespace Paired

variable {α β : Type} {R : α → β → Prop}

theorem log (level : Level) (message : String) :
    Paired Ambient.Alike Unrelated (Task.log level message) (Task.log level message) :=
  fun _ _ ha => ⟨.ok trivial, ha.record level message⟩

theorem draw (size : Nat) :
    Paired Ambient.Alike SameLength (Task.draw size) (Task.draw size) :=
  fun a a' ha => ⟨.ok ((a.entropy.length_draw size).trans (a'.entropy.length_draw size).symm), ha⟩

theorem inWorld {t : Task α} {t' : Task β} (h : Paired Ambient.Alike R t t') :
    Paired World.Alike R t.inWorld t'.inWorld :=
  fun w w' hw => ⟨(h w.ambient w'.ambient hw.ambient).1,
    (h w.ambient w'.ambient hw.ambient).2, hw.files⟩

end Paired

end Strongbox
