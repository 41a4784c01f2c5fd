import Strongbox.CommandLine.Run
import Strongbox.Session.State

/-! # Operations that leave no trace

The random source and the files are part of what operations work on. An operation is silent if it
leaves both as they are, from whatever state and however it ends. Silence is kept by sequence, by
choice and by all the ways in which an operation on a part of a state is one on the whole. -/

namespace Strongbox

/-- What every operation is accounted for. -/
structure Trace where
  entropy : Entropy
  files : FileTree

/-- A state that the random source and the files are part of. -/
class HasTrace (σ : Type) where
  trace : σ → Trace

export HasTrace (trace)

/-- A task sees no files. -/
instance : HasTrace Ambient := ⟨fun a => ⟨a.entropy, .empty []⟩⟩

instance : HasTrace World := ⟨fun w => ⟨w.ambient.entropy, w.files⟩⟩

instance : HasTrace Custody := ⟨fun c => trace c.world⟩

instance : HasTrace CommandLine.Terminal := ⟨fun t => trace t.world⟩

instance : HasTrace Session := ⟨fun s => trace s.world⟩

def entropy {σ : Type} [HasTrace σ] (s : σ) : Entropy :=
  (trace s).entropy

def files {σ : Type} [HasTrace σ] (s : σ) : FileTree :=
  (trace s).files

section

variable {ε σ α β : Type}

/-- What an operation leads to: its result and the state after it, also when it ends early. -/
def lead (m : ExceptT ε (StateM σ) α) (s : σ) : Except ε α × σ :=
  StateT.run (ExceptT.run m) s

@[simp] theorem lead_pure (a : α) (s : σ) :
    lead (pure a : ExceptT ε (StateM σ) α) s = (.ok a, s) :=
  rfl

@[simp] theorem lead_throw (e : ε) (s : σ) :
    lead (throw e : ExceptT ε (StateM σ) α) s = (.error e, s) :=
  rfl

@[simp] theorem lead_get (s : σ) : lead (get : ExceptT ε (StateM σ) σ) s = (.ok s, s) :=
  rfl

@[simp] theorem lead_set (s' s : σ) : lead (set s' : ExceptT ε (StateM σ) PUnit) s = (.ok ⟨⟩, s') :=
  rfl

@[simp] theorem lead_modify (f : σ → σ) (s : σ) :
    lead (modify f : ExceptT ε (StateM σ) PUnit) s = (.ok ⟨⟩, f s) :=
  rfl

@[simp] theorem lead_modifyGet (f : σ → α × σ) (s : σ) :
    lead (modifyGet f : ExceptT ε (StateM σ) α) s = (.ok (f s).1, (f s).2) :=
  rfl

@[simp] theorem lead_bind (m : ExceptT ε (StateM σ) α) (f : α → ExceptT ε (StateM σ) β) (s : σ) :
    lead (m >>= f) s =
      match lead m s with
      | (.ok a, s') => lead (f a) s'
      | (.error e, s') => (.error e, s') := by
  change (ExceptT.bindCont f (m s).1 : StateM σ _) (m s).2 = _
  change _ = match m s with
    | (.ok a, s') => lead (f a) s'
    | (.error e, s') => (.error e, s')
  obtain ⟨_ | _, _⟩ := m s <;> rfl

@[simp] theorem lead_map (f : α → β) (m : ExceptT ε (StateM σ) α) (s : σ) :
    lead (f <$> m) s = ((lead m s).1.map f, (lead m s).2) := by
  rw [← bind_pure_comp, lead_bind]
  obtain ⟨_ | _, _⟩ := lead m s <;> rfl

theorem lead_tryCatch (m : ExceptT ε (StateM σ) α) (f : ε → ExceptT ε (StateM σ) α) (s : σ) :
    lead (tryCatch m f) s =
      match lead m s with
      | (.ok a, s') => (.ok a, s')
      | (.error e, s') => lead (f e) s' := by
  change (match (m s).1 with
    | .ok a => (Pure.pure (Except.ok a) : StateM σ (Except ε α))
    | .error e => f e) (m s).2 = _
  change _ = match m s with
    | (Except.ok a, s') => (Except.ok a, s')
    | (.error e, s') => lead (f e) s'
  obtain ⟨_ | _, _⟩ := m s <;> rfl

/-- An operation that leaves something of the state as it is. -/
def Leaves {ω : Type} (part : σ → ω) (m : ExceptT ε (StateM σ) α) : Prop :=
  ∀ s, part (lead m s).2 = part s

namespace Leaves

variable {ω : Type} {part : σ → ω} {m : ExceptT ε (StateM σ) α} {f : α → ExceptT ε (StateM σ) β}

theorem pure (a : α) : Leaves part (pure a : ExceptT ε (StateM σ) α) :=
  fun _ => rfl

theorem throw (e : ε) : Leaves part (throw e : ExceptT ε (StateM σ) α) :=
  fun _ => rfl

theorem get : Leaves part (get : ExceptT ε (StateM σ) σ) :=
  fun _ => rfl

theorem modify {g : σ → σ} (hg : ∀ s, part (g s) = part s) :
    Leaves part (modify g : ExceptT ε (StateM σ) PUnit) :=
  hg

theorem modifyGet {g : σ → α × σ} (hg : ∀ s, part (g s).2 = part s) :
    Leaves part (modifyGet g : ExceptT ε (StateM σ) α) :=
  hg

/-- What follows leaves what the first operation has left. -/
theorem after_bind (hf : ∀ a, Leaves part (f a)) (s : σ) :
    part (lead (m >>= f) s).2 = part (lead m s).2 := by
  rw [lead_bind]
  generalize lead m s = led
  obtain ⟨e | a, s'⟩ := led
  · rfl
  · exact hf a s'

theorem bind (hm : Leaves part m) (hf : ∀ a, Leaves part (f a)) : Leaves part (m >>= f) :=
  fun s => (after_bind hf s).trans (hm s)

/-- What follows may depend on the state that was got. -/
theorem get_bind {f : σ → ExceptT ε (StateM σ) α} (h : ∀ s, part (lead (f s) s).2 = part s) :
    Leaves part (MonadState.get >>= f) := by
  intro s
  rw [lead_bind]
  exact h s

theorem ite {c : Prop} [Decidable c] {m' : ExceptT ε (StateM σ) α} (hm : Leaves part m)
    (hm' : Leaves part m') : Leaves part (if c then m else m') := by
  split
  · exact hm
  · exact hm'

theorem mapM {f : α → ExceptT ε (StateM σ) β} (hf : ∀ a, Leaves part (f a)) (as : List α) :
    Leaves part (as.mapM f) := by
  induction as with
  | nil => exact .pure []
  | cons a as ih =>
      rw [List.mapM_cons]
      exact (hf a).bind fun b => ih.bind fun bs => .pure (b :: bs)

theorem forM {f : α → ExceptT ε (StateM σ) PUnit} (hf : ∀ a, Leaves part (f a)) (as : List α) :
    Leaves part (as.forM f) := by
  induction as with
  | nil => exact .pure _
  | cons a as ih => exact (hf a).bind fun _ => ih

end Leaves

variable [HasTrace σ]

/-- The random source and the files are left as they are. -/
abbrev Silent (m : ExceptT ε (StateM σ) α) : Prop :=
  Leaves trace m

/-- The random source is left as it is. -/
abbrev Drawless (m : ExceptT ε (StateM σ) α) : Prop :=
  Leaves entropy m

theorem Leaves.drawless {m : ExceptT ε (StateM σ) α} (h : Silent m) : Drawless m :=
  fun s => congrArg Trace.entropy (h s)

end

/-! ## Operations on a part of a state -/

variable {α : Type}

theorem lead_inWorld (t : Task α) (w : World) :
    lead t.inWorld w = ((lead t w.ambient).1, { w with ambient := (lead t w.ambient).2 }) :=
  rfl

theorem lead_inSession (a : Action α) (s : Session) :
    lead a.inSession s =
      ((lead a s.world).1.mapError .abort, { s with world := (lead a s.world).2 }) :=
  rfl

theorem CommandLine.lead_perform (a : Action α) (t : Terminal) :
    lead (perform a) t = ((lead a t.world).1, { t with world := (lead a t.world).2 }) :=
  rfl

namespace Leaves

theorem inWorld {t : Task α} (h : Silent t) : Silent t.inWorld :=
  fun w => congrArg (Trace.mk · w.files) (h.drawless w.ambient)

theorem inCustody {a : Action α} (h : Silent a) : Silent a.inCustody :=
  fun c => h c.world

theorem inSession {a : Action α} (h : Silent a) : Silent a.inSession :=
  fun s => h s.world

theorem task_inSession {t : Task α} (h : Silent t) : Silent t.inSession :=
  h.inWorld.inSession

theorem observe {w : Work α} (h : Silent w) : Silent w.observe :=
  h

end Leaves

end Strongbox
