import Strongbox.Proofs.CommandLine.Opening

/-! # Writing that breaks off

Once a file has been created, something may go wrong until it is closed. Trouble with the system
takes the file away again, and the next run makes a whole one. Anything else leaves the file with
the octets that came into it, and they are what the next run returns. -/

namespace Strongbox.KeyFile

open FileTree

variable {path : Path} {faults : Faults} {w : World} {secret content : Bytes}

/-- What breaks off the writing of a file that has been created, and the octets that are in the
file then. -/
inductive Faults.Interrupts (faults : Faults) (secret : Bytes) : Interruption → Bytes → Prop
  | stream {i : Interruption} (h : faults.stream = some i) : Interrupts faults secret i []
  | write {kept : Nat} {i : Interruption} (hstream : faults.stream = none)
      (h : faults.write = some (kept, i)) : Interrupts faults secret i (secret.take kept)
  | close {i : Interruption} (hstream : faults.stream = none) (hwrite : faults.write = none)
      (h : faults.close = some i) : Interrupts faults secret i secret

/-- A run that is interrupted comes to the stage where this happens, with the file still there. -/
theorem advance_of_interrupts {made : FileTree} {l : Location} {i : Interruption} (w₁ : World)
    (hcreated : Created (toString path) made l openMode [] w₁.files)
    (hstrikes : faults.Interrupts secret i content) :
    ∃ s w₂ w₃, finish path faults (.stream secret l) w₁ = finish path faults s w₂ ∧
      advance path faults s w₂ = (.interrupted i, w₃) ∧
        Created (toString path) made l openMode content w₃.files := by
  have hstream : faults.stream = none →
      advance path faults (.stream secret l) w₁ = (.next (.write secret l), w₁) := by
    intro hnone
    rw [advance, openStream, hnone]
  cases hstrikes with
  | stream h =>
      refine ⟨.stream secret l, w₁, w₁, rfl, ?_, hcreated⟩
      rw [advance, openStream, h]
  | @write kept i hnone h =>
      refine ⟨.write secret l, w₁, { w₁ with files := w₁.files.fill l (secret.take kept) },
        finish_of_next (hstream hnone), ?_, hcreated.fill _⟩
      rw [advance, writeSecret, h]
  | close hnone hwrite h =>
      have hwritten : advance path faults (.write secret l) w₁ =
          (.next (.close secret), { w₁ with files := w₁.files.fill l secret }) := by
        rw [advance, writeSecret, hwrite]
      refine ⟨.close secret, { w₁ with files := w₁.files.fill l secret },
        { w₁ with files := w₁.files.fill l secret },
        (finish_of_next (hstream hnone)).trans (finish_of_next hwritten), ?_, hcreated.fill secret⟩
      rw [advance, closeStream, h]

theorem creatable_of_vacant {t : FileTree} {l : Location} (hnul : path.hasNul = false)
    (hdirectory : t.isDirectory (toString path.parent) = .ok true)
    (hvacant : t.locate .newFile (toString path) = .ok (.vacant l)) : Creatable path t :=
  ⟨hnul, t, l, _, ensureDirectory_of_isDirectory hdirectory, pathExists_of_vacant hvacant,
    createFile_eq_ok_iff.mpr ⟨hvacant, rfl⟩⟩

/-- A run that trouble with the system interrupts leaves no file, and room for a new one. -/
theorem ensure_of_system {e : SystemError} (hcreatable : Creatable path w.files)
    (hlate : faults.Late) (hdiscard : faults.discard = none)
    (hstrikes : faults.Interrupts (fresh w) (.system e) content) :
    ∃ w', lead (ensure path faults) w = (.error (.failure (.keyStore (toString path) e)), w') ∧
      w'.files.pathExists (toString path) = .ok false ∧ Creatable path w'.files := by
  obtain ⟨made, l, a, t', hdirectory, hcreated, hfinish⟩ := finish_of_creatable hcreatable hlate
  obtain ⟨s, w₂, w₃, hcome, hadvance, hpart⟩ :=
    advance_of_interrupts ⟨a, t'⟩ hcreated hstrikes
  obtain ⟨t, hunlink, hdir, hsame⟩ := hpart.unlink
  have hremoved : advance path faults (.discard e) w₃ =
      (.unusable path e, { w₃ with files := t }) := by
    rw [advance, discardPartial, removal, hdiscard]
    dsimp only
    rw [hunlink]
    rfl
  -- The tree without the file holds what it held before the creation, so there is room again.
  have hext : Extends made t := .of_same hdir hsame
  have hvacant : t.locate .newFile (toString path) = .ok (.vacant l) := by
    refine locate_extend hcreated.vacant hext ?_
    rintro _ ⟨⟩
    rw [hsame, hcreated.lookup_old]
  obtain ⟨l', mode, hlocate⟩ := isDirectory_eq_true_iff.mp hdirectory
  have hparent : t.isDirectory (toString path.parent) = .ok true :=
    isDirectory_eq_true_iff.mpr ⟨l', mode, locate_found_extend hlocate hext⟩
  refine ⟨{ w₃ with files := t }, ?_, pathExists_of_vacant hvacant,
    creatable_of_vacant hcreatable.1 hparent hvacant⟩
  change finish path faults .parents w = _
  rw [hfinish, hcome, finish_of_next hadvance, finish_of_ended hremoved]

/-- A run that anything else interrupts leaves its file as it is, though it could be removed. -/
theorem ensure_of_foreign {f : Fault} (hcreatable : Creatable path w.files) (hlate : faults.Late)
    (hstrikes : faults.Interrupts (fresh w) (.foreign f) content) :
    ∃ w', lead (ensure path faults) w = (.error (.fault f), w') ∧
      w'.files.readFile (toString path) = .ok content ∧
        ∃ t, w'.files.unlink (toString path) = .ok t := by
  obtain ⟨made, l, a, t', -, hcreated, hfinish⟩ := finish_of_creatable hcreatable hlate
  obtain ⟨s, w₂, w₃, hcome, hadvance, hpart⟩ :=
    advance_of_interrupts ⟨a, t'⟩ hcreated hstrikes
  obtain ⟨t, hunlink, -⟩ := hpart.unlink
  refine ⟨w₃, ?_, hpart.readFile, t, hunlink⟩
  change finish path faults .parents w = _
  rw [hfinish, hcome, finish_of_ended hadvance]

/-- The stream to a file that has been created cannot be opened, for a reason of its own. -/
def refusedStream : Faults where
  stream := some (.foreign ⟨.wrongValue, "ValueError"⟩)

theorem creatable_key : Creatable (.ofString "key") bare.files :=
  creatable_of_vacant (l := ["key", "home"]) (by decide) rfl rfl

/-- No memory is left after three octets. -/
def noMemory : Faults where
  write := some (3, .foreign ⟨.foreign, "MemoryError"⟩)

end Strongbox.KeyFile
