import Strongbox.Proofs.Files.Directories

/-! # Where paths resolve to

A path can resolve to a location at which nothing stands yet. As long as the tree only grows, and no
link is among what it grows by, the path then leads to no file and no free place anywhere else. -/

namespace Strongbox.FileTree

variable {t t' : FileTree} {p : String} {l : Location}

/-- The location that names resolve to from a directory. Links are followed, and names of nothing
are taken as they are written; rights, limits and what kind of entry it is do not matter. -/
inductive ResolvesTo (t : FileTree) : Location → List String → Location → Prop where
  | arrived (here : Location) : ResolvesTo t here [] here
  | same {here : Location} {rest : List String} {l : Location} (h : ResolvesTo t here rest l) :
      ResolvesTo t here ("." :: rest) l
  | outer {here : Location} {rest : List String} {l : Location}
      (h : ResolvesTo t here.tail rest l) : ResolvesTo t here (".." :: rest) l
  | plain {here : Location} {n : String} {rest : List String} {l : Location} (hn : IsName n)
      (hl : ∀ target, t.lookup (n :: here) ≠ some (.link target))
      (h : ResolvesTo t (n :: here) rest l) : ResolvesTo t here (n :: rest) l
  | follow {here : Location} {n : String} {rest : List String} {target : String} {l : Location}
      (hn : IsName n) (hl : t.lookup (n :: here) = some (.link target))
      (h : ResolvesTo t (targetStart (Route.ofText target) here)
        ((Route.ofText target).names ++ rest) l) : ResolvesTo t here (n :: rest) l

/-- The location that a path resolves to. -/
def Resolves (t : FileTree) (p : String) (l : Location) : Prop :=
  ResolvesTo t (t.startOf (Route.ofText p).fromRoot) (Route.ofText p).names l

namespace ResolvesTo

variable {here : Location} {rest : List String} {n : String}

theorem eq_of_nil (h : ResolvesTo t here [] l) : l = here := by
  cases h
  rfl

theorem of_same (h : ResolvesTo t here ("." :: rest) l) : ResolvesTo t here rest l := by
  generalize hnames : "." :: rest = names at h
  cases h with
  | arrived => cases hnames
  | same h => rwa [(List.cons.inj hnames).2]
  | outer => simp at hnames
  | plain hn => exact absurd (List.cons.inj hnames).1.symm hn.1
  | follow hn => exact absurd (List.cons.inj hnames).1.symm hn.1

theorem of_outer (h : ResolvesTo t here (".." :: rest) l) : ResolvesTo t here.tail rest l := by
  generalize hnames : ".." :: rest = names at h
  cases h with
  | arrived => cases hnames
  | same => simp at hnames
  | outer h => rwa [(List.cons.inj hnames).2]
  | plain hn => exact absurd (List.cons.inj hnames).1.symm hn.2
  | follow hn => exact absurd (List.cons.inj hnames).1.symm hn.2

theorem of_plain (h : ResolvesTo t here (n :: rest) l) (hn : IsName n)
    (hl : ∀ target, t.lookup (n :: here) ≠ some (.link target)) :
    ResolvesTo t (n :: here) rest l := by
  cases h with
  | same => exact absurd rfl hn.1
  | outer => exact absurd rfl hn.2
  | plain _ _ h => exact h
  | follow _ hlink => exact absurd hlink (hl _)

theorem of_link {target : String} (h : ResolvesTo t here (n :: rest) l) (hn : IsName n)
    (hl : t.lookup (n :: here) = some (.link target)) :
    ResolvesTo t (targetStart (Route.ofText target) here) ((Route.ofText target).names ++ rest)
      l := by
  cases h with
  | same => exact absurd rfl hn.1
  | outer => exact absurd rfl hn.2
  | plain _ hno _ => exact absurd hl (hno _)
  | follow _ hlink h =>
      rw [hl] at hlink
      obtain rfl := Entry.link.inj (Option.some.inj hlink)
      exact h

end ResolvesTo

/-! ## Growing trees -/

/-- Every entry is still there, and no link is new. -/
structure Grown (t t' : FileTree) : Prop where
  extends_ : Extends t t'
  links : ∀ l target, t'.lookup l = some (.link target) → t.lookup l = some (.link target)

namespace Grown

theorem refl (t : FileTree) : Grown t t :=
  ⟨.refl t, fun _ _ h => h⟩

theorem trans {t'' : FileTree} (h : Grown t t') (h' : Grown t' t'') : Grown t t'' :=
  ⟨h.extends_.trans h'.extends_, fun l target hl => h.links l target (h'.links l target hl)⟩

theorem of_directoriesMade {q : Path} (h : DirectoriesMade q t t') : Grown t t' := by
  refine ⟨h.extends_, fun l target hl => ?_⟩
  cases hold : t.lookup l with
  | none => cases (h.made l _ hold hl).1
  | some e =>
      have hkept := h.extends_.keeps l e hold
      rw [hl] at hkept
      exact hkept.symm

theorem of_created {mode : Nat} {content : Bytes} (h : Created p t l mode content t') :
    Grown t t' := by
  refine ⟨h.extends_, fun l' target hl => ?_⟩
  by_cases heq : l' = l
  · rw [heq, h.set.lookup_self] at hl
    cases hl
  · rwa [h.set.lookup_other heq] at hl

theorem of_same (hdir : t'.workingDirectory = t.workingDirectory)
    (hsame : ∀ l, t'.lookup l = t.lookup l) : Grown t t' := by
  refine ⟨.of_same hdir hsame, fun l target hl => ?_⟩
  rwa [hsame] at hl

end Grown

/-- A walk in a grown tree comes to a file or a free place only where the names resolved to. -/
theorem Leads.eq_of_resolvesTo {aim : Aim} {links : Nat} {closed : Bool} {here : Location}
    {names : List String} {place : Place} (h : Leads t' aim links closed here names place)
    (hgrown : Grown t t') (hresolves : ResolvesTo t here names l) :
    (∀ l', place = .vacant l' → l' = l) ∧
      ∀ l' mode content, place = .found l' (.file mode content) → l' = l := by
  induction h with
  | stay links closed here => exact ⟨by nofun, by nofun⟩
  | same hs _ ih => exact ih hresolves.of_same
  | outer hs _ ih => exact ih hresolves.of_outer
  | vacant links hs hn _ _ hl =>
      have hplain := hresolves.of_plain hn fun target hlink => by
        rw [hgrown.extends_.keeps _ _ hlink] at hl
        cases hl
      refine ⟨fun l' heq => ?_, by nofun⟩
      rw [← Place.vacant.inj heq, hplain.eq_of_nil]
  | @entry links closed here n e hs hn _ _ hl _ =>
      refine ⟨by nofun, fun l' mode content heq => ?_⟩
      obtain ⟨rfl, rfl⟩ := Place.found.inj heq
      have hplain := hresolves.of_plain hn fun target hlink => by
        rw [hgrown.extends_.keeps _ _ hlink] at hl
        cases hl
      rw [hplain.eq_of_nil]
  | enter hs hn _ _ hl _ ih =>
      refine ih (hresolves.of_plain hn fun target hlink => ?_)
      rw [hgrown.extends_.keeps _ _ hlink] at hl
      cases hl
  | follow hs hn _ _ hl _ ih => exact ih (hresolves.of_link hn (hgrown.links _ _ hl))

theorem Resolves.eq_of_locate_vacant {aim : Aim} {l' : Location} (h : Resolves t p l)
    (hgrown : Grown t t') (hlocate : t'.locate aim p = .ok (.vacant l')) : l' = l := by
  obtain ⟨-, -, hleads⟩ := locate_eq_ok_iff.mp hlocate
  rw [hgrown.extends_.startOf] at hleads
  exact (hleads.eq_of_resolvesTo hgrown h).1 l' rfl

theorem Resolves.eq_of_locate_file {aim : Aim} {l' : Location} {mode : Nat} {content : Bytes}
    (h : Resolves t p l) (hgrown : Grown t t')
    (hlocate : t'.locate aim p = .ok (.found l' (.file mode content))) : l' = l := by
  obtain ⟨-, -, hleads⟩ := locate_eq_ok_iff.mp hlocate
  rw [hgrown.extends_.startOf] at hleads
  exact (hleads.eq_of_resolvesTo hgrown h).2 l' mode content rfl

/-! ## The file at a location -/

/-- What is in the file at a location, if there is one. -/
def contentAt (t : FileTree) (l : Location) : Option Bytes :=
  match t.lookup l with
  | some (.file _ content) => some content
  | _ => none

theorem contentAt_eq_some_iff {content : Bytes} :
    t.contentAt l = some content ↔ ∃ mode, t.lookup l = some (.file mode content) := by
  unfold contentAt
  cases t.lookup l with
  | none => simp
  | some e => cases e <;> simp

theorem contentAt_of_lookup_eq_none (h : t.lookup l = none) : t.contentAt l = none := by
  rw [contentAt, h]

theorem DirectoriesMade.contentAt_eq {q : Path} (h : DirectoriesMade q t t') (l : Location) :
    t'.contentAt l = t.contentAt l := by
  cases hold : t.lookup l with
  | some e => rw [contentAt, contentAt, h.extends_.keeps l e hold, hold]
  | none =>
      rw [contentAt_of_lookup_eq_none hold]
      cases hnew : t'.lookup l with
      | none => exact contentAt_of_lookup_eq_none hnew
      | some e => rw [contentAt, hnew, (h.made l e hold hnew).1]

theorem Created.contentAt_eq {mode : Nat} {content : Bytes} (h : Created p t l mode content t') :
    t'.contentAt l = some content :=
  contentAt_eq_some_iff.mpr ⟨mode, h.set.lookup_self⟩

/-- An entry that is put in changes no file elsewhere. -/
theorem contentAt_put {e : Entry} {l' : Location} {content : Bytes}
    (h : (t.put l e).contentAt l' = some content) :
    t.contentAt l' = some content ∨ l' = l ∧ ∃ mode, e = .file mode content := by
  obtain ⟨mode, hlookup⟩ := contentAt_eq_some_iff.mp h
  cases l' with
  | nil => cases hlookup
  | cons n outer =>
      simp only [lookup, put, AssocList.lookup_put] at hlookup
      split at hlookup
      · rename_i heq
        exact .inr ⟨heq, mode, Option.some.inj hlookup⟩
      · exact .inl (contentAt_eq_some_iff.mpr ⟨mode, hlookup⟩)

theorem contentAt_remove {l' : Location} {content : Bytes}
    (h : (t.remove l).contentAt l' = some content) : t.contentAt l' = some content := by
  obtain ⟨mode, hlookup⟩ := contentAt_eq_some_iff.mp h
  refine contentAt_eq_some_iff.mpr ⟨mode, ?_⟩
  cases l' with
  | nil => cases hlookup
  | cons n outer =>
      simp only [lookup, remove, AssocList.lookup_remove] at hlookup
      split at hlookup
      · cases hlookup
      · exact hlookup

section

variable {mode : Nat} {octets content : Bytes} {l' : Location}

theorem contentAt_createFile (h : t.createFile p mode = .ok (l, t'))
    (hcontent : t'.contentAt l' = some content) : t.contentAt l' = some content ∨ content = [] := by
  obtain ⟨-, rfl⟩ := createFile_eq_ok_iff.mp h
  rcases contentAt_put hcontent with hold | ⟨-, mode', hfile⟩
  · exact .inl hold
  · cases hfile
    exact .inr rfl

theorem contentAt_fill (h : (t.fill l octets).contentAt l' = some content) :
    t.contentAt l' = some content ∨ l' = l ∧ content = octets := by
  unfold fill at h
  split at h
  · rcases contentAt_put h with hold | ⟨rfl, mode', hfile⟩
    · exact .inl hold
    · cases hfile
      exact .inr ⟨rfl, rfl⟩
  · exact .inl h

theorem contentAt_writeFile (h : t.writeFile p mode octets = .ok t')
    (hcontent : t'.contentAt l' = some content) :
    t.contentAt l' = some content ∨ content = octets := by
  have hput : ∃ l mode', t' = t.put l (.file mode' octets) := by
    unfold writeFile at h
    cases hlocate : t.locate .file p with
    | error code => simp [hlocate] at h
    | ok place =>
        simp only [hlocate, bind_ok] at h
        split at h
        · split at h
          · exact ⟨_, _, (Except.ok.inj h).symm⟩
          · cases h
        · cases h
        · exact ⟨_, _, (Except.ok.inj h).symm⟩
  obtain ⟨l, mode', rfl⟩ := hput
  rcases contentAt_put hcontent with hold | ⟨-, mode'', hfile⟩
  · exact .inl hold
  · cases hfile
    exact .inr rfl

theorem contentAt_changeMode (h : t.changeMode p mode = .ok t')
    (hcontent : t'.contentAt l' = some content) : t.contentAt l' = some content := by
  unfold changeMode at h
  cases hlocate : t.locate .entry p with
  | error code => simp [hlocate] at h
  | ok place =>
      simp only [hlocate, bind_ok] at h
      split at h
      · cases h
      · obtain rfl := Except.ok.inj h
        rcases contentAt_put hcontent with hold | ⟨rfl, mode', hfile⟩
        · exact hold
        · cases hfile
          exact contentAt_eq_some_iff.mpr ⟨_, (lookup_of_locate_file hlocate).2⟩
      · obtain rfl := Except.ok.inj h
        rcases contentAt_put hcontent with hold | ⟨-, mode', hfile⟩
        · exact hold
        · cases hfile
      · cases h

theorem contentAt_unlink (h : t.unlink p = .ok t') (hcontent : t'.contentAt l' = some content) :
    t.contentAt l' = some content := by
  unfold unlink at h
  cases hlocate : t.locate .name p with
  | error code => simp [hlocate] at h
  | ok place =>
      simp only [hlocate, bind_ok] at h
      split at h
      · cases h
      · split at h
        · cases h
        · obtain rfl := Except.ok.inj h
          exact contentAt_remove hcontent
      · cases h

end

/-- Only the file at the location that the path resolves to is ever read. -/
theorem Resolves.contentAt_of_readFile {content : Bytes} (h : Resolves t p l)
    (hgrown : Grown t t') (hread : t'.readFile p = .ok content) :
    t'.contentAt l = some content := by
  obtain ⟨l', mode, hlocate⟩ := readFile_eq_ok_iff.mp hread
  obtain rfl := h.eq_of_locate_file hgrown hlocate
  exact contentAt_eq_some_iff.mpr ⟨mode, (lookup_of_locate_file hlocate).2⟩

/-- Only at the location that the path resolves to is a file ever created. -/
theorem Resolves.created_of_createFile {mode : Nat} {l' : Location} {t'' : FileTree}
    (h : Resolves t p l) (hgrown : Grown t t') (hcreate : t'.createFile p mode = .ok (l', t'')) :
    l' = l ∧ Created p t' l mode [] t'' := by
  have hcreated := FileTree.created_of_createFile hcreate
  obtain rfl := h.eq_of_locate_vacant hgrown hcreated.vacant
  exact ⟨rfl, hcreated⟩

end Strongbox.FileTree
