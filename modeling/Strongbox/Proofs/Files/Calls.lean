import Strongbox.Proofs.Files.Walk

/-! # What the calls do to a tree

Each call is described by where its path leads and by one entry that it sets or removes. A tree that
is another one with an entry of its own at one location is followed through several calls by
`EntrySet`. -/

namespace Strongbox.FileTree

variable {t t' : FileTree} {p : String} {l : Location} {e : Entry}

/-! ## Where a path leads -/

theorem locate_eq_ok_iff {aim : Aim} {place : Place} :
    t.locate aim p = .ok place ↔
      p.isEmpty = false ∧ p.utf8ByteSize < pathLimit ∧
        Leads t aim linkLimit (Route.ofText p).closed (t.startOf (Route.ofText p).fromRoot)
          (Route.ofText p).names place := by
  unfold locate
  cases hempty : p.isEmpty with
  | true => simp
  | false =>
      by_cases hlong : pathLimit ≤ p.utf8ByteSize
      · simp [hlong, Nat.not_lt.mpr hlong]
      · simp [hlong, Nat.lt_of_not_le hlong, walk_eq_ok_iff]

theorem Extends.startOf (h : Extends t t') (fromRoot : Bool) :
    t'.startOf fromRoot = t.startOf fromRoot := by
  unfold FileTree.startOf
  rw [h.workingDirectory]

theorem locate_extend {aim : Aim} {place : Place} (h : t.locate aim p = .ok place)
    (hext : Extends t t') (hvacant : ∀ l, place = .vacant l → t'.lookup l = none) :
    t'.locate aim p = .ok place := by
  rw [locate_eq_ok_iff] at h ⊢
  obtain ⟨hempty, hsize, hleads⟩ := h
  refine ⟨hempty, hsize, ?_⟩
  rw [hext.startOf]
  exact hleads.extend hext hvacant

theorem locate_found_extend {aim : Aim} (h : t.locate aim p = .ok (.found l e))
    (hext : Extends t t') : t'.locate aim p = .ok (.found l e) :=
  locate_extend h hext nofun

theorem lookup_of_locate_vacant {aim : Aim} (h : t.locate aim p = .ok (.vacant l)) :
    l ≠ [] ∧ t.lookup l = none := by
  obtain ⟨-, -, hleads⟩ := locate_eq_ok_iff.mp h
  exact hleads.lookup_vacant

theorem lookup_of_locate_file {aim : Aim} {mode : Nat} {content : Bytes}
    (h : t.locate aim p = .ok (.found l (.file mode content))) :
    l ≠ [] ∧ t.lookup l = some (.file mode content) := by
  obtain ⟨-, -, hleads⟩ := locate_eq_ok_iff.mp h
  rcases hleads.lookup_found with hl | hdir
  · refine ⟨?_, hl⟩
    rintro rfl
    simp [lookup] at hl
  · cases hdir

theorem closed_of_newFile (h : t.locate .newFile p = .ok (.vacant l)) :
    (Route.ofText p).closed = false := by
  obtain ⟨-, -, hleads⟩ := locate_eq_ok_iff.mp h
  exact hleads.closed_eq_false rfl

/-- A file made where a new one may be made is found there under every aim. -/
theorem locate_newFile {mode : Nat} {content : Bytes} (h : t.locate .newFile p = .ok (.vacant l))
    (hext : Extends t t') (hl : t'.lookup l = some (.file mode content)) (aim : Aim) :
    t'.locate aim p = .ok (.found l (.file mode content)) := by
  have hclosed := closed_of_newFile h
  rw [locate_eq_ok_iff] at h ⊢
  obtain ⟨hempty, hsize, hleads⟩ := h
  refine ⟨hempty, hsize, ?_⟩
  rw [hext.startOf]
  refine hleads.found_of_vacant (fun c => by cases c <;> rfl) hext hl ?_ ?_
  · simp [hclosed]
  · simp [hclosed, Aim.StopsAt]

theorem locate_newDirectory {mode : Nat} (h : t.locate .name p = .ok (.vacant l))
    (hext : Extends t t') (hl : t'.lookup l = some (.directory mode)) :
    t'.locate .entry p = .ok (.found l (.directory mode)) := by
  rw [locate_eq_ok_iff] at h ⊢
  obtain ⟨hempty, hsize, hleads⟩ := h
  refine ⟨hempty, hsize, ?_⟩
  rw [hext.startOf]
  exact hleads.found_of_vacant (fun c => by cases c <;> rfl) hext hl (by nofun) trivial

/-- Something stands under a path that leads somewhere. -/
theorem locate_name_of_entry (h : t.locate .entry p = .ok (.found l e)) :
    ∃ l' e', t.locate .name p = .ok (.found l' e') := by
  obtain ⟨hempty, hsize, hleads⟩ := locate_eq_ok_iff.mp h
  obtain ⟨l', e', hle⟩ := hleads.meets .name (.refl t) (by nofun)
    (fun c => by cases c <;> rfl) (by nofun) (by nofun)
  exact ⟨l', e', locate_eq_ok_iff.mpr ⟨hempty, hsize, hle⟩⟩

/-- Once a file stands where one could be written, no new one can be made under the path. -/
theorem locate_newFile_of_file (h : t.locate .file p = .ok (.vacant l)) (hext : Extends t t')
    (hl : t'.lookup l = some e) : ∃ l' e', t'.locate .newFile p = .ok (.found l' e') := by
  obtain ⟨hempty, hsize, hleads⟩ := locate_eq_ok_iff.mp h
  have hplace : ∀ l₀, Place.vacant l = .vacant l₀ → ∃ e, t'.lookup l₀ = some e := by
    rintro l₀ ⟨⟩
    exact ⟨e, hl⟩
  obtain ⟨l', e', hle⟩ := hleads.meets .newFile hext hplace
    (fun c => by cases c <;> rfl) (by nofun) (fun _ => rfl)
  rw [← hext.startOf] at hle
  exact ⟨l', e', locate_eq_ok_iff.mpr ⟨hempty, hsize, hle⟩⟩

theorem locate_entry_of_file {place : Place} (h : t.locate .file p = .ok place) :
    t.locate .entry p = .ok place := by
  rw [locate_eq_ok_iff] at h ⊢
  obtain ⟨hempty, hsize, hleads⟩ := h
  exact ⟨hempty, hsize, hleads.entry_of_file⟩

theorem locate_entry_of_vacant {aim : Aim} (h : t.locate aim p = .ok (.vacant l)) :
    t.locate .entry p = .ok (.vacant l) := by
  rw [locate_eq_ok_iff] at h ⊢
  obtain ⟨hempty, hsize, hleads⟩ := h
  exact ⟨hempty, hsize, hleads.entry_of_vacant⟩

theorem locate_entry_of_written {mode : Nat} {content : Bytes}
    (h : t.locate .file p = .ok (.vacant l)) (hext : Extends t t')
    (hl : t'.lookup l = some (.file mode content)) :
    t'.locate .entry p = .ok (.found l (.file mode content)) := by
  rw [locate_eq_ok_iff] at h ⊢
  obtain ⟨hempty, hsize, hleads⟩ := h
  refine ⟨hempty, hsize, ?_⟩
  rw [hext.startOf]
  exact hleads.entry_of_written hext hl

/-! ## A tree with one entry set -/

/-- `t'` has the entry at the location, and is otherwise `t`. -/
structure EntrySet (t : FileTree) (l : Location) (e : Entry) (t' : FileTree) : Prop where
  workingDirectory : t'.workingDirectory = t.workingDirectory
  lookup_eq : ∀ l', t'.lookup l' = if l' = l then some e else t.lookup l'

namespace EntrySet

variable {e' : Entry}

theorem of_put (hne : l ≠ []) : EntrySet t l e (t.put l e) :=
  ⟨rfl, fun l' => lookup_put t l l' e hne⟩

theorem lookup_self (h : EntrySet t l e t') : t'.lookup l = some e := by
  rw [h.lookup_eq, if_pos rfl]

theorem lookup_other (h : EntrySet t l e t') {l' : Location} (hne : l' ≠ l) :
    t'.lookup l' = t.lookup l' := by
  rw [h.lookup_eq, if_neg hne]

/-- The last entry set is the one that stands. -/
theorem put (h : EntrySet t l e t') (hne : l ≠ []) : EntrySet t l e' (t'.put l e') := by
  refine ⟨h.workingDirectory, ?_⟩
  intro l'
  rw [lookup_put t' l l' e' hne, h.lookup_eq]
  split <;> rfl

/-- Taking the entry away again restores what every location held. -/
theorem lookup_remove (h : EntrySet t l e t') (hne : l ≠ []) (hl : t.lookup l = none)
    (l' : Location) : (t'.remove l).lookup l' = t.lookup l' := by
  rw [FileTree.lookup_remove t' l l' hne]
  split
  · rename_i heq
    rw [heq, hl]
  · rename_i hdiff
    exact h.lookup_other hdiff

theorem extends_file {mode : Nat} {content : Bytes} (h : EntrySet t l (.file mode content) t')
    (hl : t.lookup l = none) : Extends t t' := by
  refine ⟨h.workingDirectory, ?_, ?_⟩
  · intro l' e' hl'
    rw [h.lookup_other, hl']
    rintro rfl
    simp [hl] at hl'
  · intro l' mode' hnone hdir
    rw [h.lookup_eq] at hdir
    split at hdir
    · cases hdir
    · simp [hnone] at hdir

end EntrySet

/-! ## The calls -/

section

variable {α β : Type}

@[simp] theorem bind_ok (a : α) (f : α → Except SystemCode β) : Except.ok a >>= f = f a :=
  rfl

@[simp] theorem bind_error (code : SystemCode) (f : α → Except SystemCode β) :
    Except.error code >>= f = .error code :=
  rfl

@[simp] theorem pure_eq_ok (a : α) : (pure a : Except SystemCode α) = .ok a :=
  rfl

@[simp] theorem throw_eq_error (code : SystemCode) :
    (throw code : Except SystemCode α) = .error code :=
  rfl

end

theorem makeDirectory_eq_ok_iff :
    t.makeDirectory p = .ok t' ↔
      ∃ l, t.locate .name p = .ok (.vacant l) ∧ t' = t.put l (.directory directoryMode) := by
  unfold makeDirectory
  cases t.locate .name p with
  | error code => simp
  | ok place => cases place <;> simp [eq_comm]

theorem makeDirectory_of_found {l' : Location} {e' : Entry}
    (h : t.locate .name p = .ok (.found l' e')) : t.makeDirectory p = .error .alreadyExists := by
  rw [makeDirectory, h]
  rfl

theorem status_eq_ok_iff {aim : Aim} :
    t.status aim p = .ok e ↔ ∃ l, t.locate aim p = .ok (.found l e) := by
  unfold status
  cases t.locate aim p with
  | error code => simp
  | ok place => cases place <;> simp

theorem locate_ne_found {aim : Aim} {code : SystemCode} (h : t.status aim p = .error code)
    (l : Location) (e : Entry) : t.locate aim p ≠ .ok (.found l e) := by
  intro hl
  rw [status_eq_ok_iff.mpr ⟨l, hl⟩] at h
  cases h

theorem leadsTo_eq_true_iff {kind : Entry → Bool} :
    t.leadsTo kind p = .ok true ↔
      ∃ l e, t.locate .entry p = .ok (.found l e) ∧ kind e = true := by
  unfold leadsTo
  cases h : t.status .entry p with
  | ok e =>
      obtain ⟨l, hl⟩ := status_eq_ok_iff.mp h
      constructor
      · intro hkind
        exact ⟨l, e, hl, Except.ok.inj hkind⟩
      · rintro ⟨l', e', hl', hkind⟩
        rw [hl] at hl'
        obtain ⟨-, rfl⟩ := Place.found.inj (Except.ok.inj hl')
        exact congrArg Except.ok hkind
  | error code =>
      simp only [locate_ne_found h, false_and, exists_false, iff_false]
      split <;> simp

theorem pathExists_eq_true_iff :
    t.pathExists p = .ok true ↔ ∃ l e, t.locate .entry p = .ok (.found l e) := by
  simp [pathExists, leadsTo_eq_true_iff]

theorem pathExists_of_vacant {aim : Aim} (h : t.locate aim p = .ok (.vacant l)) :
    t.pathExists p = .ok false := by
  rw [pathExists, leadsTo, status, locate_entry_of_vacant h]
  rfl

theorem isDirectory_eq_true_iff :
    t.isDirectory p = .ok true ↔
      ∃ l mode, t.locate .entry p = .ok (.found l (.directory mode)) := by
  rw [isDirectory, leadsTo_eq_true_iff]
  constructor
  · rintro ⟨l, e, hl, hdir⟩
    cases e with
    | directory mode => exact ⟨l, mode, hl⟩
    | file mode content => cases hdir
    | link target => cases hdir
  · rintro ⟨l, mode, hl⟩
    exact ⟨l, .directory mode, hl, rfl⟩

theorem readFile_eq_ok_iff {content : Bytes} :
    t.readFile p = .ok content ↔
      ∃ l mode, t.locate .entry p = .ok (.found l (.file mode content)) := by
  unfold readFile
  cases h : t.status .entry p with
  | ok e =>
      obtain ⟨l, hl⟩ := status_eq_ok_iff.mp h
      cases e <;> simp [hl]
  | error code => simp [locate_ne_found h]

theorem createFile_eq_ok_iff {mode : Nat} :
    t.createFile p mode = .ok (l, t') ↔
      t.locate .newFile p = .ok (.vacant l) ∧ t' = t.put l (.file mode []) := by
  unfold createFile
  cases t.locate .newFile p with
  | error code => simp
  | ok place =>
      cases place with
      | found l' e' => simp
      | vacant l' =>
          simp only [bind_ok, pure_eq_ok, Except.ok.injEq, Prod.mk.injEq, Place.vacant.injEq]
          constructor
          · rintro ⟨rfl, rfl⟩
            exact ⟨rfl, rfl⟩
          · rintro ⟨rfl, rfl⟩
            exact ⟨rfl, rfl⟩

theorem createFile_of_found {mode : Nat} {l' : Location} {e' : Entry}
    (h : t.locate .newFile p = .ok (.found l' e')) :
    t.createFile p mode = .error .alreadyExists := by
  rw [createFile, h]
  rfl

theorem fill_of_file {mode : Nat} {old content : Bytes}
    (h : t.lookup l = some (.file mode old)) : t.fill l content = t.put l (.file mode content) := by
  rw [fill, h]

/-- Where nothing is found, a file that gets written is a new one. -/
theorem writeFile_eq_ok {mode : Nat} {content : Bytes} (habsent : t.pathExists p = .ok false)
    (h : t.writeFile p mode content = .ok t') :
    ∃ l, t.locate .file p = .ok (.vacant l) ∧ t' = t.put l (.file mode content) := by
  unfold writeFile at h
  cases hl : t.locate .file p with
  | error code => simp [hl] at h
  | ok place =>
      cases place with
      | found l e =>
          have hexists := pathExists_eq_true_iff.mpr ⟨l, e, locate_entry_of_file hl⟩
          simp [habsent] at hexists
      | vacant l =>
          simp only [hl, bind_ok, pure_eq_ok, Except.ok.injEq] at h
          exact ⟨l, rfl, h.symm⟩

theorem changeMode_of_file {mode old : Nat} {content : Bytes}
    (h : t.locate .entry p = .ok (.found l (.file old content))) :
    t.changeMode p mode = .ok (t.put l (.file mode content)) := by
  obtain ⟨hne, -⟩ := lookup_of_locate_file h
  unfold changeMode
  cases l with
  | nil => exact absurd rfl hne
  | cons n outer => simp [h]

theorem unlink_of_file {mode : Nat} {content : Bytes}
    (h : t.locate .name p = .ok (.found l (.file mode content)))
    (hclosed : (Route.ofText p).closed = false) : t.unlink p = .ok (t.remove l) := by
  simp [unlink, h, hclosed]

/-! ## A file that has been created -/

/-- `t'` is `t` with a file where the path led to a free place for a new one. -/
structure Created (p : String) (t : FileTree) (l : Location) (mode : Nat) (content : Bytes)
    (t' : FileTree) : Prop where
  vacant : t.locate .newFile p = .ok (.vacant l)
  set : EntrySet t l (.file mode content) t'

theorem created_of_createFile {mode : Nat} (h : t.createFile p mode = .ok (l, t')) :
    Created p t l mode [] t' := by
  obtain ⟨hvacant, rfl⟩ := createFile_eq_ok_iff.mp h
  obtain ⟨hne, -⟩ := lookup_of_locate_vacant hvacant
  exact ⟨hvacant, .of_put hne⟩

namespace Created

variable {mode : Nat} {content : Bytes}

theorem lookup_old (h : Created p t l mode content t') : t.lookup l = none :=
  (lookup_of_locate_vacant h.vacant).2

theorem extends_ (h : Created p t l mode content t') : Extends t t' :=
  h.set.extends_file h.lookup_old

theorem locate (h : Created p t l mode content t') (aim : Aim) :
    t'.locate aim p = .ok (.found l (.file mode content)) :=
  locate_newFile h.vacant h.extends_ h.set.lookup_self aim

theorem put (h : Created p t l mode content t') (mode' : Nat) (content' : Bytes) :
    Created p t l mode' content' (t'.put l (.file mode' content')) := by
  obtain ⟨hne, -⟩ := lookup_of_locate_vacant h.vacant
  exact ⟨h.vacant, h.set.put hne⟩

theorem pathExists (h : Created p t l mode content t') : t'.pathExists p = .ok true :=
  pathExists_eq_true_iff.mpr ⟨l, _, h.locate .entry⟩

theorem readFile (h : Created p t l mode content t') : t'.readFile p = .ok content :=
  readFile_eq_ok_iff.mpr ⟨l, mode, h.locate .entry⟩

theorem createFile (h : Created p t l mode content t') (mode' : Nat) :
    t'.createFile p mode' = .error .alreadyExists :=
  createFile_of_found (h.locate .newFile)

theorem fill (h : Created p t l mode content t') (octets : Bytes) :
    Created p t l mode octets (t'.fill l octets) := by
  rw [fill_of_file h.set.lookup_self]
  exact h.put mode octets

theorem changeMode (h : Created p t l mode content t') (mode' : Nat) :
    ∃ t'', t'.changeMode p mode' = .ok t'' ∧ Created p t l mode' content t'' :=
  ⟨_, changeMode_of_file (h.locate .entry), h.put mode' content⟩

/-- The file can be removed, and then the tree holds what it held before. -/
theorem unlink (h : Created p t l mode content t') :
    ∃ t'', t'.unlink p = .ok t'' ∧ t''.workingDirectory = t.workingDirectory ∧
      ∀ l', t''.lookup l' = t.lookup l' := by
  obtain ⟨hne, hnone⟩ := lookup_of_locate_vacant h.vacant
  exact ⟨t'.remove l, unlink_of_file (h.locate .name) (closed_of_newFile h.vacant),
    h.set.workingDirectory, h.set.lookup_remove hne hnone⟩

end Created

end Strongbox.FileTree
