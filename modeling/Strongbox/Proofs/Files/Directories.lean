import Strongbox.Files.Directories
import Strongbox.Proofs.Files.Calls

/-! # What creating directories does to a tree

Whether it succeeds or not, creating a directory with those above it adds missing directories to
which outer paths lead, and nothing else. -/

namespace Strongbox

/-- `q` is `p` itself or one of the paths it runs through. -/
def Path.Reaches (q p : Path) : Prop :=
  q.root = p.root ∧ q.names <+: p.names

namespace Path

theorem Reaches.refl (p : Path) : Reaches p p :=
  ⟨rfl, List.prefix_rfl⟩

theorem parent_reaches (p : Path) : Reaches p.parent p :=
  ⟨rfl, List.dropLast_prefix p.names⟩

theorem Reaches.trans {p q r : Path} (h : Reaches p q) (h' : Reaches q r) : Reaches p r :=
  ⟨h.1.trans h'.1, h.2.trans h'.2⟩

theorem Reaches.hasNul {p q : Path} (h : Reaches q p) (hp : p.hasNul = false) :
    q.hasNul = false := by
  unfold Path.hasNul at hp ⊢
  rw [List.any_eq_false] at hp ⊢
  intro n hn
  exact hp n (h.2.subset hn)

end Path

namespace FileTree

variable {t t' : FileTree} {p q : Path}

/-- What is new in `t'` are directories, and some outer path of `p` leads to each. -/
structure DirectoriesMade (p : Path) (t t' : FileTree) : Prop where
  extends_ : Extends t t'
  made : ∀ l e, t.lookup l = none → t'.lookup l = some e →
    e = .directory directoryMode ∧
      ∃ q : Path, q.Reaches p ∧ t'.locate .entry (toString q) = .ok (.found l e)

namespace DirectoriesMade

theorem refl (p : Path) (t : FileTree) : DirectoriesMade p t t :=
  ⟨.refl t, fun _ _ hn he => by simp [hn] at he⟩

theorem trans {t'' : FileTree} (h : DirectoriesMade p t t') (h' : DirectoriesMade p t' t'') :
    DirectoriesMade p t t'' := by
  refine ⟨h.extends_.trans h'.extends_, ?_⟩
  intro l e hnone he
  cases hl : t'.lookup l with
  | none => exact h'.made l e hl he
  | some e' =>
      have heq := h'.extends_.keeps l e' hl
      rw [he] at heq
      obtain rfl := Option.some.inj heq
      obtain ⟨hdir, q, hq, hlocate⟩ := h.made l e hnone hl
      exact ⟨hdir, q, hq, locate_found_extend hlocate h'.extends_⟩

/-- Trees that hold the same entries are not told apart. -/
theorem of_same {t'' : FileTree} (h : DirectoriesMade p t t')
    (hdir : t''.workingDirectory = t'.workingDirectory)
    (hsame : ∀ l, t''.lookup l = t'.lookup l) : DirectoriesMade p t t'' := by
  have hext : Extends t' t'' := .of_same hdir hsame
  refine ⟨h.extends_.trans hext, ?_⟩
  intro l e hnone he
  rw [hsame] at he
  obtain ⟨hmode, q, hq, hlocate⟩ := h.made l e hnone he
  exact ⟨hmode, q, hq, locate_found_extend hlocate hext⟩

/-- What is no directory and stands in the new tree was there before. -/
theorem lookup_of_file (h : DirectoriesMade p t t') {l : Location} {mode : Nat} {content : Bytes}
    (hl : t'.lookup l = some (.file mode content)) : t.lookup l = some (.file mode content) := by
  cases hold : t.lookup l with
  | none =>
      obtain ⟨hdir, -⟩ := h.made l _ hold hl
      cases hdir
  | some e =>
      have hkept := h.extends_.keeps l e hold
      rw [hl] at hkept
      exact hkept.symm

theorem mono (h : DirectoriesMade q t t') (hq : q.Reaches p) : DirectoriesMade p t t' := by
  refine ⟨h.extends_, ?_⟩
  intro l e hnone he
  obtain ⟨hdir, r, hr, hlocate⟩ := h.made l e hnone he
  exact ⟨hdir, r, hr.trans hq, hlocate⟩

theorem of_makeDirectory (h : t.makeDirectory (toString p) = .ok t') :
    DirectoriesMade p t t' := by
  obtain ⟨l, hlocate, rfl⟩ := makeDirectory_eq_ok_iff.mp h
  obtain ⟨hne, hnone⟩ := lookup_of_locate_vacant hlocate
  have hset : EntrySet t l (.directory directoryMode) (t.put l (.directory directoryMode)) :=
    .of_put hne
  have hext : Extends t (t.put l (.directory directoryMode)) := by
    apply Extends.put hne hnone
    rintro mode ⟨⟩
    rfl
  refine ⟨hext, ?_⟩
  intro l' e hnone' he
  rw [hset.lookup_eq] at he
  split at he
  · rename_i heq
    subst heq
    obtain rfl := Option.some.inj he
    exact ⟨rfl, p, .refl p, locate_newDirectory hlocate hext hset.lookup_self⟩
  · simp [hnone'] at he

end DirectoriesMade

theorem isDirectory_of_makeDirectory (h : t.makeDirectory (toString p) = .ok t') :
    t'.isDirectory (toString p) = .ok true := by
  obtain ⟨l, hlocate, rfl⟩ := makeDirectory_eq_ok_iff.mp h
  obtain ⟨hne, hnone⟩ := lookup_of_locate_vacant hlocate
  have hext : Extends t (t.put l (.directory directoryMode)) := by
    apply Extends.put hne hnone
    rintro mode ⟨⟩
    rfl
  exact isDirectory_eq_true_iff.mpr
    ⟨l, directoryMode, locate_newDirectory hlocate hext (EntrySet.of_put hne).lookup_self⟩

/-! ## Forgiven attempts -/

theorem forgive_eq_ok_iff {code : SystemCode} :
    t.forgive p code = .ok () ↔ t.isDirectory (toString p) = .ok true := by
  unfold forgive
  cases t.isDirectory (toString p) with
  | error other => simp
  | ok there => cases there <;> simp

theorem error_of_forgive {code : SystemCode} {error : SystemError}
    (h : t.forgive p code = .error error) : ∃ other, error = errorAt p other := by
  unfold forgive at h
  split at h
  · cases h
  · exact ⟨code, (Except.error.inj h).symm⟩
  · exact ⟨_, (Except.error.inj h).symm⟩

/-! ## The whole creation -/

/-- A creation that fails keeps what it has made so far. -/
theorem ensureDirectory_made (t : FileTree) (p : Path) :
    DirectoriesMade p t (t.ensureDirectory p).2 := by
  fun_induction ensureDirectory t p with
  | case1 p t₁ hmake => exact .of_makeDirectory hmake
  | case2 p _ _ => exact .refl p t
  | case3 p _ _ _ e t₁ hparent ih =>
      rw [hparent] at ih
      exact ih.mono p.parent_reaches
  | case4 p _ _ _ t₁ hparent t₂ hmake ih =>
      rw [hparent] at ih
      exact (ih.mono p.parent_reaches).trans (.of_makeDirectory hmake)
  | case5 p _ _ _ t₁ hparent _ ih =>
      rw [hparent] at ih
      exact ih.mono p.parent_reaches
  | case6 p _ _ _ t₁ hparent code _ _ ih =>
      rw [hparent] at ih
      exact ih.mono p.parent_reaches
  | case7 p code _ _ => exact .refl p t

theorem isDirectory_of_ensureDirectory (h : (t.ensureDirectory p).1 = .ok ()) :
    (t.ensureDirectory p).2.isDirectory (toString p) = .ok true := by
  fun_induction ensureDirectory t p with
  | case1 p t₁ hmake => exact isDirectory_of_makeDirectory hmake
  | case2 p _ _ => cases h
  | case3 p _ _ _ e t₁ _ _ => cases h
  | case4 p _ _ _ t₁ _ t₂ hmake _ => exact isDirectory_of_makeDirectory hmake
  | case5 p _ _ _ t₁ _ _ _ => cases h
  | case6 p _ _ _ t₁ _ code _ _ _ => exact forgive_eq_ok_iff.mp h
  | case7 p code _ _ => exact forgive_eq_ok_iff.mp h

/-- A directory that is there is left as it is. -/
theorem ensureDirectory_of_isDirectory (h : t.isDirectory (toString p) = .ok true) :
    t.ensureDirectory p = (.ok (), t) := by
  obtain ⟨l, mode, hlocate⟩ := isDirectory_eq_true_iff.mp h
  obtain ⟨l', e', hname⟩ := locate_name_of_entry hlocate
  have hmake := makeDirectory_of_found hname
  have hforgive : t.forgive p .alreadyExists = .ok () := forgive_eq_ok_iff.mpr h
  rw [ensureDirectory, hmake]
  simp [hforgive]

theorem error_of_ensureDirectory {error : SystemError}
    (h : (t.ensureDirectory p).1 = .error error) :
    ∃ (q : Path) (code : SystemCode), q.Reaches p ∧ error = errorAt q code := by
  fun_induction ensureDirectory t p with
  | case1 p t₁ hmake => cases h
  | case2 p _ _ => exact ⟨p, .noEntry, .refl p, (Except.error.inj h).symm⟩
  | case3 p _ _ _ e t₁ hparent ih =>
      obtain rfl := Except.error.inj h
      rw [hparent] at ih
      obtain ⟨q, code, hq, he⟩ := ih rfl
      exact ⟨q, code, hq.trans p.parent_reaches, he⟩
  | case4 p _ _ _ t₁ hparent t₂ hmake ih => cases h
  | case5 p _ _ _ t₁ hparent _ ih => exact ⟨p, .noEntry, .refl p, (Except.error.inj h).symm⟩
  | case6 p _ _ _ t₁ hparent code _ _ ih =>
      obtain ⟨other, he⟩ := error_of_forgive h
      exact ⟨p, other, .refl p, he⟩
  | case7 p code _ _ =>
      obtain ⟨other, he⟩ := error_of_forgive h
      exact ⟨p, other, .refl p, he⟩

end FileTree

end Strongbox
