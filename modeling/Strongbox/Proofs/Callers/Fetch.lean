import Strongbox.Proofs.Files.Resolution
import Strongbox.Proofs.KeyFile

/-! # A run on the file of a location

What holds at each stage of a run while nobody else makes or removes files. A file is read only at
the location that the path resolves to, and made only where there is none; and a new file is final
only when the last stage is over. -/

namespace Strongbox.KeyFile

open FileTree

/-- Only trouble with the system strikes, no rival comes, and a partial file can be removed. -/
structure Faults.Contained (faults : Faults) : Prop where
  systemic : faults.Systemic
  rival : faults.rival = none
  discard : faults.discard = none

/-- A file has been created where the path resolved to, with these octets in it so far. -/
def Begun (files : FileTree) (path : Path) (l : Location) (content : Bytes) (t : FileTree) : Prop :=
  ∃ base mode, Grown files base ∧ Created (toString path) base l mode content t

/-- The tree at a stage of a run, when `known` is the key that has been settled on. -/
def Stage.Meets (files : FileTree) (path : Path) (l : Location) (known : Option Bytes)
    (t : FileTree) : Stage → Prop
  | .parents | .check | .load | .draw | .create _ => t.contentAt l = known
  | .stream _ file | .write _ file => file = l ∧ known = none ∧ Begun files path l [] t
  | .close secret | .harden secret => known = none ∧ Begun files path l secret t
  | .discard _ => known = none ∧ ∃ content, Begun files path l content t

/-- The tree when a run goes on or has ended. -/
def Move.Meets (files : FileTree) (path : Path) (l : Location) (known : Option Bytes)
    (t : FileTree) : Move → Prop
  | .next s => s.Meets files path l known t
  | .ended (.ok key) =>
    known = some key ∧ t.contentAt l = known ∧ t.readFile (toString path) = .ok key
  | .ended (.error _) => t.contentAt l = known

/-- The key that has been settled on after a stage. Only its last stage makes a new file final. -/
def Stage.settles (known : Option Bytes) : Stage → Option Bytes
  | .harden secret => some secret
  | _ => known

/-- What a stage must lead to. Once a key has been settled on the tree only grows. -/
structure Advances (files : FileTree) (path : Path) (l : Location) (known : Option Bytes)
    (t : FileTree) (s : Stage) (led : Move × World) : Prop where
  grown : Grown files led.2.files
  kept : ∀ key, known = some key → Extends t led.2.files ∧ s.settles known = known
  meets : led.1.Meets files path l (s.settles known) led.2.files

variable {files : FileTree} {path : Path} {l : Location} {known : Option Bytes} {faults : Faults}
  {w : World} {secret : Bytes}

theorem Begun.grown {content : Bytes} {t : FileTree} (h : Begun files path l content t) :
    Grown files t := by
  obtain ⟨base, mode, hbase, hcreated⟩ := h
  exact hbase.trans (.of_created hcreated)

theorem Begun.fill {content : Bytes} {t : FileTree} (h : Begun files path l content t)
    (octets : Bytes) : Begun files path l octets (t.fill l octets) := by
  obtain ⟨base, mode, hbase, hcreated⟩ := h
  exact ⟨base, mode, hbase, hcreated.fill octets⟩

/-- A stage that leaves the files alone. -/
theorem advances_of_files_eq {s : Stage} {led : Move × World} (hgrown : Grown files w.files)
    (hfiles : led.2.files = w.files) (hsettles : s.settles known = known)
    (hmeets : led.1.Meets files path l known w.files) :
    Advances files path l known w.files s led := by
  refine ⟨hfiles ▸ hgrown, fun key _ => ⟨?_, hsettles⟩, ?_⟩
  · rw [hfiles]
    exact .refl w.files
  · rw [hsettles, hfiles]
    exact hmeets

theorem makeParents_advances (hgrown : Grown files w.files)
    (hcontent : w.files.contentAt l = known) :
    Advances files path l known w.files .parents (makeParents path faults w) := by
  have hmade := ensureDirectory_made w.files path.parent
  unfold makeParents
  split
  · exact advances_of_files_eq hgrown rfl rfl hcontent
  · cases faults.parents with
    | some e => exact advances_of_files_eq hgrown rfl rfl hcontent
    | none =>
        have hgrown' := hgrown.trans (.of_directoriesMade hmade)
        have hcontent' := (hmade.contentAt_eq l).trans hcontent
        cases hensure : w.files.ensureDirectory path.parent with
        | mk result t =>
            rw [hensure] at hmade hgrown' hcontent'
            cases result with
            | ok u => exact ⟨hgrown', fun _ _ => ⟨hmade.extends_, rfl⟩, hcontent'⟩
            | error e => exact ⟨hgrown', fun _ _ => ⟨hmade.extends_, rfl⟩, hcontent'⟩

theorem lookForFile_advances (hgrown : Grown files w.files)
    (hcontent : w.files.contentAt l = known) :
    Advances files path l known w.files .check (lookForFile path faults w) := by
  unfold lookForFile
  split
  · exact advances_of_files_eq hgrown rfl rfl hcontent
  · split <;> exact advances_of_files_eq hgrown rfl rfl hcontent

theorem loadFile_advances (hresolves : files.Resolves (toString path) l)
    (hgrown : Grown files w.files) (hcontent : w.files.contentAt l = known) :
    Advances files path l known w.files .load (loadFile path faults w) := by
  unfold loadFile
  cases faults.load with
  | some e => exact advances_of_files_eq hgrown rfl rfl hcontent
  | none =>
      cases hread : w.files.readFile (toString path) with
      | error code => exact advances_of_files_eq hgrown rfl rfl hcontent
      | ok key =>
          have hkey := hresolves.contentAt_of_readFile hgrown hread
          exact advances_of_files_eq hgrown rfl rfl ⟨hcontent ▸ hkey, hcontent, hread⟩

theorem drawSecret_advances (hgrown : Grown files w.files)
    (hcontent : w.files.contentAt l = known) :
    Advances files path l known w.files .draw (drawSecret path faults w) := by
  unfold drawSecret
  split <;> exact advances_of_files_eq hgrown rfl rfl hcontent

theorem createFile_advances (hfaults : faults.Contained)
    (hresolves : files.Resolves (toString path) l) (hgrown : Grown files w.files)
    (hcontent : w.files.contentAt l = known) :
    Advances files path l known w.files (.create secret) (createFile path faults secret w) := by
  unfold createFile creation afterRival
  rw [hfaults.rival]
  split
  · exact advances_of_files_eq hgrown rfl rfl hcontent
  · cases faults.create with
    | some e => exact advances_of_files_eq hgrown rfl rfl hcontent
    | none =>
        dsimp only
        cases hcreate : w.files.createFile (toString path) openMode with
        | error code => exact advances_of_files_eq hgrown rfl rfl hcontent
        | ok new =>
            obtain ⟨l', t⟩ := new
            obtain ⟨rfl, hcreated⟩ := hresolves.created_of_createFile hgrown hcreate
            have hknown : known = none :=
              hcontent.symm.trans (contentAt_of_lookup_eq_none hcreated.lookup_old)
            refine ⟨hgrown.trans (.of_created hcreated), ?_, rfl, hknown, ?_⟩
            · rintro key rfl
              cases hknown
            · exact ⟨w.files, openMode, hgrown, hcreated⟩

/-- Trouble with a file of its own has the run discard it. -/
theorem interrupted_meets {i : Interruption} {content : Bytes} {t : FileTree}
    (hsystem : ∀ f, i ≠ .foreign f) (hknown : known = none)
    (h : Begun files path l content t) : (Move.interrupted i).Meets files path l known t := by
  cases i with
  | system e => exact ⟨hknown, content, h⟩
  | foreign f => exact absurd rfl (hsystem f)

theorem openStream_advances (hfaults : faults.Contained)
    (h : (Stage.stream secret l).Meets files path l known w.files) :
    Advances files path l known w.files (.stream secret l) (openStream faults secret l w) := by
  obtain ⟨-, hknown, hbegun⟩ := h
  unfold openStream
  cases hstream : faults.stream with
  | none => exact advances_of_files_eq hbegun.grown rfl rfl ⟨rfl, hknown, hbegun⟩
  | some i =>
      refine advances_of_files_eq hbegun.grown rfl rfl (interrupted_meets ?_ hknown hbegun)
      rintro f rfl
      exact hfaults.systemic.stream f hstream

theorem writeSecret_advances (hfaults : faults.Contained)
    (h : (Stage.write secret l).Meets files path l known w.files) :
    Advances files path l known w.files (.write secret l) (writeSecret faults secret l w) := by
  obtain ⟨-, hknown, hbegun⟩ := h
  have hkept : ∀ key, known ≠ some key := by
    rintro key rfl
    cases hknown
  unfold writeSecret
  cases hwrite : faults.write with
  | none =>
      have hfill := hbegun.fill secret
      exact ⟨hfill.grown, fun key hkey => absurd hkey (hkept key), hknown, hfill⟩
  | some fault =>
      obtain ⟨kept, i⟩ := fault
      have hfill := hbegun.fill (secret.take kept)
      refine ⟨hfill.grown, fun key hkey => absurd hkey (hkept key), ?_⟩
      refine interrupted_meets ?_ hknown hfill
      rintro f rfl
      exact hfaults.systemic.write kept f hwrite

theorem closeStream_advances (hfaults : faults.Contained)
    (h : (Stage.close secret).Meets files path l known w.files) :
    Advances files path l known w.files (.close secret) (closeStream faults secret w) := by
  obtain ⟨hknown, hbegun⟩ := h
  unfold closeStream
  cases hclose : faults.close with
  | none => exact advances_of_files_eq hbegun.grown rfl rfl ⟨hknown, hbegun⟩
  | some i =>
      refine advances_of_files_eq hbegun.grown rfl rfl (interrupted_meets ?_ hknown hbegun)
      rintro f rfl
      exact hfaults.systemic.close f hclose

/-- The partial file goes, and then there is none at the location. -/
theorem discardPartial_advances (hfaults : faults.Contained) {cause : SystemError}
    (h : (Stage.discard cause).Meets files path l known w.files) :
    Advances files path l known w.files (.discard cause) (discardPartial path faults cause w) := by
  obtain ⟨hknown, content, base, mode, hbase, hcreated⟩ := h
  obtain ⟨t, hunlink, hdir, hsame⟩ := hcreated.unlink
  unfold discardPartial removal
  rw [hfaults.discard, hunlink]
  refine ⟨hbase.trans (.of_same hdir hsame), ?_, ?_⟩
  · rintro key rfl
    cases hknown
  · have hnone : t.lookup l = none := (hsame l).trans hcreated.lookup_old
    exact (contentAt_of_lookup_eq_none hnone).trans hknown.symm

theorem hardenFile_advances (h : (Stage.harden secret).Meets files path l known w.files) :
    Advances files path l known w.files (.harden secret) (hardenFile path faults secret w) := by
  obtain ⟨hknown, hbegun⟩ := h
  have hkept : ∀ key, known ≠ some key := by
    rintro key rfl
    cases hknown
  have hgrown := hbegun.grown
  obtain ⟨base, mode, hbase, hcreated⟩ := hbegun
  unfold hardenFile hardening
  cases faults.harden with
  | some e =>
      exact ⟨hgrown, fun key hkey => absurd hkey (hkept key), rfl, hcreated.contentAt_eq,
        hcreated.readFile⟩
  | none =>
      obtain ⟨t, hchange, hcreated'⟩ := hcreated.changeMode hardMode
      rw [hchange]
      exact ⟨hbase.trans (.of_created hcreated'), fun key hkey => absurd hkey (hkept key), rfl,
        hcreated'.contentAt_eq, hcreated'.readFile⟩

theorem advance_advances (hfaults : faults.Contained) (hresolves : files.Resolves (toString path) l)
    (hgrown : Grown files w.files) {s : Stage} (h : s.Meets files path l known w.files) :
    Advances files path l known w.files s (advance path faults s w) := by
  cases s with
  | parents => exact makeParents_advances hgrown h
  | check => exact lookForFile_advances hgrown h
  | load => exact loadFile_advances hresolves hgrown h
  | draw => exact drawSecret_advances hgrown h
  | create secret => exact createFile_advances hfaults hresolves hgrown h
  | stream secret file =>
      obtain rfl : file = l := h.1
      exact openStream_advances hfaults h
  | write secret file =>
      obtain rfl : file = l := h.1
      exact writeSecret_advances hfaults h
  | close secret => exact closeStream_advances hfaults h
  | discard cause => exact discardPartial_advances hfaults h
  | harden secret => exact hardenFile_advances h

end Strongbox.KeyFile
