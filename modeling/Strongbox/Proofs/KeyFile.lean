import Strongbox.KeyFile
import Strongbox.Proofs.Files.Directories

/-! # What a run on a key file leaves behind

A run that ends with octets leaves them in the file, and a run that fails leaves no file of its own
unless even the removal failed. What holds when a stage is reached is an invariant that each stage
hands on to the next. -/

namespace Strongbox.KeyFile

open FileTree

/-! ## Outcomes -/

/-- Nothing but trouble with the system interrupts the writing. -/
structure Faults.Systemic (faults : Faults) : Prop where
  stream : ∀ f, faults.stream ≠ some (.foreign f)
  write : ∀ kept f, faults.write ≠ some (kept, .foreign f)
  close : ∀ f, faults.close ≠ some (.foreign f)

/-- The octets for a new key. -/
def fresh (w : World) : Bytes :=
  (w.ambient.entropy.draw Key.size).1

/-- The surroundings once the file has been found. -/
def whileLoading (path : Path) (w : World) : Ambient :=
  w.ambient.record .debug s!"Loading secret file {path}"

/-- The surroundings once the octets for a new key have been drawn. -/
def whileWriting (path : Path) (w : World) : Ambient :=
  { w.ambient with entropy := (w.ambient.entropy.draw Key.size).2 }.record .info
    s!"Writing secret file {path}"

/-- Missing directories have been made and a file where nothing was, and the path leads to it. -/
structure FileAdded (path : Path) (t : FileTree) (l : Location) (mode : Nat) (content : Bytes)
    (t' : FileTree) : Prop where
  added : ∃ made, DirectoriesMade path.parent t made ∧ made.lookup l = none ∧
    EntrySet made l (.file mode content) t'
  found : t'.locate .entry (toString path) = .ok (.found l (.file mode content))

/-- The octets are those of a file that was there and is as it was. -/
structure Loaded (path : Path) (w : World) (octets : Bytes) (w' : World) : Prop where
  found : ∃ l mode, w.files.lookup l = some (.file mode octets) ∧
    w'.files.locate .entry (toString path) = .ok (.found l (.file mode octets))
  directories : DirectoriesMade path.parent w.files w'.files
  ambient : w'.ambient = whileLoading path w

/-- The octets are fresh and in a new file, for its owner to read and, if hardening failed, to
write. -/
inductive Generated (path : Path) (faults : Faults) (w : World) (octets : Bytes) (w' : World) : Prop
  | hardened (l : Location) (hfresh : octets = fresh w) (hharden : faults.harden = none)
      (file : FileAdded path w.files l hardMode octets w'.files)
      (ambient : w'.ambient = whileWriting path w)
  | exposed (l : Location) (e : SystemError) (hfresh : octets = fresh w)
      (hharden : faults.harden = some e)
      (file : FileAdded path w.files l openMode octets w'.files)
      (ambient : w'.ambient = (whileWriting path w).record .warning
        s!"Unable to restrict permissions on secret file {path}: {e.text}")

/-- Why nothing was drawn: a fault, or a call that failed on the tree `t'` made from `t`. -/
inductive Prevented (path : Path) (faults : Faults) (t t' : FileTree) : SystemError → Prop
  | parents {e : SystemError} (h : faults.parents = some e) : Prevented path faults t t' e
  | noDirectory {e : SystemError} (h : t.ensureDirectory path.parent = (.error e, t')) :
      Prevented path faults t t' e
  | check {e : SystemError} (h : faults.check = some e) : Prevented path faults t t' e
  | unknown {code : SystemCode} (h : t'.pathExists (toString path) = .error code) :
      Prevented path faults t t' (errorAt path code)
  | load {e : SystemError} (h : faults.load = some e) : Prevented path faults t t' e
  | unreadable {code : SystemCode} (h : t'.readFile (toString path) = .error code) :
      Prevented path faults t t' (errorAt path code)
  | entropy {e : SystemError} (h : faults.entropy = some e) : Prevented path faults t t' e

/-- Why there is no file of its own: a fault, or a call that failed on the tree. -/
inductive Uncreated (path : Path) (faults : Faults) (t : FileTree) : SystemError → Prop
  | create {e : SystemError} (h : faults.create = some e) : Uncreated path faults t e
  | call {code : SystemCode} (h : t.createFile (toString path) openMode = .error code) :
      Uncreated path faults t (errorAt path code)
  | rival {content : Bytes} {code : SystemCode} (hrival : faults.rival = some content)
      (h : t.writeFile (toString path) rivalMode content = .error code) :
      Uncreated path faults t (errorAt path code)

/-- Why a file of its own is given up. -/
inductive Spoiled (faults : Faults) : SystemError → Prop
  | stream {e : SystemError} (h : faults.stream = some (.system e)) : Spoiled faults e
  | write {e : SystemError} {kept : Nat} (h : faults.write = some (kept, .system e)) :
      Spoiled faults e
  | close {e : SystemError} (h : faults.close = some (.system e)) : Spoiled faults e

/-- The faults that can end a run. -/
inductive Faults.Injects (faults : Faults) (e : SystemError) : Prop
  | parents (h : faults.parents = some e)
  | check (h : faults.check = some e)
  | load (h : faults.load = some e)
  | entropy (h : faults.entropy = some e)
  | create (h : faults.create = some e)
  | spoiled (h : Spoiled faults e)

/-- What a failed run leaves, by how far it came. -/
inductive Refused (path : Path) (faults : Faults) (w : World) (e : SystemError) (w' : World) : Prop
  | early (cause : Prevented path faults w.files w'.files e)
      (directories : DirectoriesMade path.parent w.files w'.files)
      (ambient : w'.ambient = w.ambient ∨ w'.ambient = whileLoading path w)
  | uncreated (cause : Uncreated path faults w'.files e)
      (directories : DirectoriesMade path.parent w.files w'.files)
      (ambient : w'.ambient = whileWriting path w)
  /-- The file of a rival is left alone. -/
  | beaten (l : Location) (content : Bytes) (hrival : faults.rival = some content)
      (cause : Uncreated path faults w'.files e)
      (file : FileAdded path w.files l rivalMode content w'.files)
      (ambient : w'.ambient = whileWriting path w)
  | removed (cause : Spoiled faults e) (hdiscard : faults.discard = none)
      (directories : DirectoriesMade path.parent w.files w'.files)
      (ambient : w'.ambient = whileWriting path w)
  | abandoned (l : Location) (content : Bytes) (d : SystemError) (cause : Spoiled faults e)
      (hdiscard : faults.discard = some d) (part : content <+: fresh w)
      (file : FileAdded path w.files l openMode content w'.files)
      (ambient : w'.ambient = (whileWriting path w).record .warning
        s!"Unable to remove partial secret file {path}: {d.text}")

/-- What a run from `w` may come to. -/
inductive Outcome (path : Path) (faults : Faults) (w : World) : Except Abort Bytes → World → Prop
  | loaded {octets : Bytes} {w' : World} (h : Loaded path w octets w') :
      Outcome path faults w (.ok octets) w'
  | generated {octets : Bytes} {w' : World} (h : Generated path faults w octets w') :
      Outcome path faults w (.ok octets) w'
  | refused {e : SystemError} {w' : World} (h : Refused path faults w e w') :
      Outcome path faults w (.error (.failure (.keyStore (toString path) e))) w'

variable {path : Path} {faults : Faults} {w w' : World}

namespace FileAdded

variable {t t' : FileTree} {l : Location} {mode : Nat} {content : Bytes}

theorem extends_ (h : FileAdded path t l mode content t') : Extends t t' := by
  obtain ⟨made, hmade, hnone, hset⟩ := h.added
  exact hmade.extends_.trans (hset.extends_file hnone)

theorem readFile (h : FileAdded path t l mode content t') :
    t'.readFile (toString path) = .ok content :=
  readFile_eq_ok_iff.mpr ⟨l, mode, h.found⟩

end FileAdded

namespace Outcome

variable {result : Except Abort Bytes}

theorem readFile {octets : Bytes} (h : Outcome path faults w (.ok octets) w') :
    w'.files.readFile (toString path) = .ok octets := by
  cases h with
  | loaded h =>
      obtain ⟨l, mode, -, hfound⟩ := h.found
      exact readFile_eq_ok_iff.mpr ⟨l, mode, hfound⟩
  | generated h =>
      cases h with
      | hardened l _ _ file _ => exact file.readFile
      | exposed l e _ _ file _ => exact file.readFile

/-- Whatever happens, all that was there is there and as it was. -/
theorem extends_ (h : Outcome path faults w result w') : Extends w.files w'.files := by
  cases h with
  | loaded h => exact h.directories.extends_
  | generated h =>
      cases h with
      | hardened l _ _ file _ => exact file.extends_
      | exposed l e _ _ file _ => exact file.extends_
  | refused h =>
      cases h with
      | early _ directories _ => exact directories.extends_
      | uncreated _ directories _ => exact directories.extends_
      | beaten l content _ _ file _ => exact file.extends_
      | removed _ _ directories _ => exact directories.extends_
      | abandoned l content d _ _ _ file _ => exact file.extends_

end Outcome

/-- The trouble is a fault, or it names the path of the file or one that this runs through. -/
theorem Refused.blames {e : SystemError} (h : Refused path faults w e w') :
    faults.Injects e ∨ ∃ (q : Path) (code : SystemCode), q.Reaches path ∧ e = errorAt q code := by
  have hself : ∀ code, ∃ (q : Path) (code' : SystemCode),
      q.Reaches path ∧ errorAt path code = errorAt q code' := by
    intro code
    exact ⟨path, code, .refl path, rfl⟩
  have hcreation : Uncreated path faults w'.files e →
      faults.Injects e ∨ ∃ (q : Path) (code : SystemCode), q.Reaches path ∧ e = errorAt q code := by
    intro cause
    cases cause with
    | create h => exact .inl (.create h)
    | call _ => exact .inr (hself _)
    | rival _ _ => exact .inr (hself _)
  cases h with
  | early cause _ _ =>
      cases cause with
      | parents h => exact .inl (.parents h)
      | noDirectory h =>
          obtain ⟨q, code, hq, he⟩ := error_of_ensureDirectory (congrArg Prod.fst h)
          exact .inr ⟨q, code, hq.trans path.parent_reaches, he⟩
      | check h => exact .inl (.check h)
      | unknown _ => exact .inr (hself _)
      | load h => exact .inl (.load h)
      | unreadable _ => exact .inr (hself _)
      | entropy h => exact .inl (.entropy h)
  | uncreated cause _ _ => exact hcreation cause
  | beaten _ _ _ cause _ _ => exact hcreation cause
  | removed cause _ _ _ => exact .inl (.spoiled cause)
  | abandoned _ _ _ cause _ _ _ _ => exact .inl (.spoiled cause)

/-! ## The invariant -/

/-- A file of its own is in the making. -/
structure Making (path : Path) (w : World) (l : Location) (content : Bytes) (w₁ : World) :
    Prop where
  tree : ∃ made, DirectoriesMade path.parent w.files made ∧
    Created (toString path) made l openMode content w₁.files
  ambient : w₁.ambient = whileWriting path w

/-- What holds when a run from `w` has reached a stage. -/
def Reached (path : Path) (faults : Faults) (w : World) : Stage → World → Prop
  | .parents, w₁ => w₁ = w
  | .check, w₁ => DirectoriesMade path.parent w.files w₁.files ∧ w₁.ambient = w.ambient
  | .load, w₁ => DirectoriesMade path.parent w.files w₁.files ∧ w₁.ambient = whileLoading path w
  | .draw, w₁ =>
    DirectoriesMade path.parent w.files w₁.files ∧ w₁.ambient = w.ambient ∧
      w₁.files.pathExists (toString path) = .ok false
  | .create secret, w₁ =>
    secret = fresh w ∧ DirectoriesMade path.parent w.files w₁.files ∧
      w₁.ambient = whileWriting path w ∧ w₁.files.pathExists (toString path) = .ok false
  | .stream secret l, w₁ => secret = fresh w ∧ Making path w l [] w₁
  | .write secret l, w₁ => secret = fresh w ∧ Making path w l [] w₁
  | .close secret, w₁ => secret = fresh w ∧ ∃ l, Making path w l secret w₁
  | .discard cause, w₁ =>
    Spoiled faults cause ∧ ∃ l content, content <+: fresh w ∧ Making path w l content w₁
  | .harden secret, w₁ => secret = fresh w ∧ ∃ l, Making path w l secret w₁

/-- What a stage must lead to: a stage that is reached, or an outcome. -/
def Settles (path : Path) (faults : Faults) (w : World) (led : Move × World) : Prop :=
  match led.1 with
  | .next s => Reached path faults w s led.2
  | .ended result => Outcome path faults w result led.2

variable {w₁ : World} {secret : Bytes} {l : Location}

theorem fileAdded_of_created {made t : FileTree} {mode : Nat} {content : Bytes}
    (hmade : DirectoriesMade path.parent w.files made)
    (h : Created (toString path) made l mode content t) :
    FileAdded path w.files l mode content t :=
  ⟨⟨made, hmade, h.lookup_old, h.set⟩, h.locate .entry⟩

namespace Making

variable {content : Bytes}

theorem fileAdded (h : Making path w l content w₁) :
    FileAdded path w.files l openMode content w₁.files := by
  obtain ⟨made, hmade, hcreated⟩ := h.tree
  exact fileAdded_of_created hmade hcreated

theorem fill (h : Making path w l content w₁) (octets : Bytes) :
    Making path w l octets { w₁ with files := w₁.files.fill l octets } := by
  obtain ⟨made, hmade, hcreated⟩ := h.tree
  exact ⟨⟨made, hmade, hcreated.fill octets⟩, h.ambient⟩

/-- Without a fault of its own the removal succeeds and takes back the whole creation. -/
theorem unlink (h : Making path w l content w₁) :
    ∃ t, w₁.files.unlink (toString path) = .ok t ∧ DirectoriesMade path.parent w.files t := by
  obtain ⟨made, hmade, hcreated⟩ := h.tree
  obtain ⟨t, hunlink, hdir, hsame⟩ := hcreated.unlink
  exact ⟨t, hunlink, hmade.of_same hdir hsame⟩

/-- Without a fault of its own the hardening succeeds. -/
theorem changeMode (h : Making path w l content w₁) (mode : Nat) :
    ∃ t, w₁.files.changeMode (toString path) mode = .ok t ∧
      FileAdded path w.files l mode content t := by
  obtain ⟨made, hmade, hcreated⟩ := h.tree
  obtain ⟨t, hchange, hcreated'⟩ := hcreated.changeMode mode
  exact ⟨t, hchange, fileAdded_of_created hmade hcreated'⟩

end Making

/-! ## The stages -/

theorem makeParents_settles (hnul : path.hasNul = false) :
    Settles path faults w (makeParents path faults w) := by
  have hparent := path.parent_reaches.hasNul hnul
  have hmade := ensureDirectory_made w.files path.parent
  unfold makeParents
  rw [if_neg (by simp [hparent])]
  cases hfault : faults.parents with
  | some e => exact .refused (.early (.parents hfault) (.refl _ _) (.inl rfl))
  | none =>
      cases hensure : w.files.ensureDirectory path.parent with
      | mk result files =>
          rw [hensure] at hmade
          cases result with
          | ok u => exact ⟨hmade, rfl⟩
          | error e => exact .refused (.early (.noDirectory hensure) hmade (.inl rfl))

theorem lookForFile_settles (hnul : path.hasNul = false) (h : Reached path faults w .check w₁) :
    Settles path faults w (lookForFile path faults w₁) := by
  obtain ⟨hmade, hambient⟩ := h
  unfold lookForFile
  cases hfault : faults.check with
  | some e => exact .refused (.early (.check hfault) hmade (.inl hambient))
  | none =>
      rw [if_neg (by simp [hnul])]
      cases hexists : w₁.files.pathExists (toString path) with
      | error code => exact .refused (.early (.unknown hexists) hmade (.inl hambient))
      | ok there =>
          cases there with
          | false => exact ⟨hmade, hambient, hexists⟩
          | true =>
              refine ⟨hmade, ?_⟩
              simp only [World.record, whileLoading, hambient]

theorem loadFile_settles (h : Reached path faults w .load w₁) :
    Settles path faults w (loadFile path faults w₁) := by
  obtain ⟨hmade, hambient⟩ := h
  unfold loadFile
  cases hfault : faults.load with
  | some e => exact .refused (.early (.load hfault) hmade (.inr hambient))
  | none =>
      cases hread : w₁.files.readFile (toString path) with
      | error code => exact .refused (.early (.unreadable hread) hmade (.inr hambient))
      | ok content =>
          obtain ⟨l, mode, hlocate⟩ := readFile_eq_ok_iff.mp hread
          obtain ⟨-, hl⟩ := lookup_of_locate_file hlocate
          exact .loaded ⟨⟨l, mode, hmade.lookup_of_file hl, hlocate⟩, hmade, hambient⟩

theorem drawSecret_settles (h : Reached path faults w .draw w₁) :
    Settles path faults w (drawSecret path faults w₁) := by
  obtain ⟨hmade, hambient, habsent⟩ := h
  unfold drawSecret
  cases hfault : faults.entropy with
  | some e => exact .refused (.early (.entropy hfault) hmade (.inl hambient))
  | none =>
      refine ⟨?_, hmade, ?_, habsent⟩
      · rw [fresh, ← hambient]
      · rw [whileWriting, ← hambient]
        rfl

/-- The tree before the creation: a rival, if it came, has added its file where nothing was, and no
other file can be created any more. -/
theorem afterRival_cases {files : FileTree} (hmade : DirectoriesMade path.parent w.files w₁.files)
    (habsent : w₁.files.pathExists (toString path) = .ok false)
    (h : afterRival path faults w₁.files = .ok files) :
    files = w₁.files ∨
      ∃ l content, faults.rival = some content ∧
        FileAdded path w.files l rivalMode content files ∧
          files.createFile (toString path) openMode = .error .alreadyExists := by
  unfold afterRival at h
  cases hrival : faults.rival with
  | none =>
      rw [hrival] at h
      exact .inl (Except.ok.inj h).symm
  | some content =>
      rw [hrival] at h
      obtain ⟨l, hvacant, rfl⟩ := writeFile_eq_ok habsent h
      obtain ⟨hne, hnone⟩ := lookup_of_locate_vacant hvacant
      have hset : EntrySet w₁.files l (.file rivalMode content)
          (w₁.files.put l (.file rivalMode content)) := .of_put hne
      have hext := hset.extends_file hnone
      obtain ⟨l', e', htaken⟩ := locate_newFile_of_file hvacant hext hset.lookup_self
      exact .inr ⟨l, content, rfl, ⟨⟨_, hmade, hnone, hset⟩,
        locate_entry_of_written hvacant hext hset.lookup_self⟩, createFile_of_found htaken⟩

theorem uncreated_of_afterRival {code : SystemCode}
    (h : afterRival path faults w₁.files = .error code) :
    Uncreated path faults w₁.files (errorAt path code) := by
  unfold afterRival at h
  cases hrival : faults.rival with
  | none =>
      rw [hrival] at h
      cases h
  | some content =>
      rw [hrival] at h
      exact .rival hrival h

theorem createFile_settles (hnul : path.hasNul = false)
    (h : Reached path faults w (.create secret) w₁) :
    Settles path faults w (createFile path faults secret w₁) := by
  obtain ⟨hsecret, hmade, hambient, habsent⟩ := h
  unfold createFile creation
  rw [if_neg (by simp [hnul])]
  cases hrival : afterRival path faults w₁.files with
  | error code =>
      exact .refused (.uncreated (uncreated_of_afterRival hrival) hmade hambient)
  | ok files =>
      have hrefused : ∀ e, Uncreated path faults files e →
          Refused path faults w e { w₁ with files } := by
        intro e he
        rcases afterRival_cases hmade habsent hrival with rfl | ⟨l, content, hc, hadded, -⟩
        · exact .uncreated he hmade hambient
        · exact .beaten l content hc he hadded hambient
      cases hfault : faults.create with
      | some e => exact .refused (hrefused e (.create hfault))
      | none =>
          dsimp only
          cases hcreate : files.createFile (toString path) openMode with
          | error code => exact .refused (hrefused _ (.call hcreate))
          | ok made =>
              obtain ⟨l, files'⟩ := made
              rcases afterRival_cases hmade habsent hrival with rfl | ⟨_, _, -, -, htaken⟩
              · exact ⟨hsecret, ⟨_, hmade, created_of_createFile hcreate⟩, hambient⟩
              · rw [htaken] at hcreate
                cases hcreate

/-- Trouble with the system while the file is in the making leads to its removal. -/
theorem interrupted_settles {i : Interruption} {content : Bytes}
    (hsystem : ∀ f, i ≠ .foreign f) (hspoiled : ∀ e, i = .system e → Spoiled faults e)
    (hpart : content <+: fresh w) (h : Making path w l content w₁) :
    Settles path faults w (Move.interrupted i, w₁) := by
  cases i with
  | system e => exact ⟨hspoiled e rfl, l, content, hpart, h⟩
  | foreign f => exact absurd rfl (hsystem f)

theorem openStream_settles (hsystem : faults.Systemic)
    (h : Reached path faults w (.stream secret l) w₁) :
    Settles path faults w (openStream faults secret l w₁) := by
  obtain ⟨hsecret, hmaking⟩ := h
  unfold openStream
  cases hfault : faults.stream with
  | none => exact ⟨hsecret, hmaking⟩
  | some i =>
      refine interrupted_settles ?_ ?_ List.nil_prefix hmaking
      · rintro f rfl
        exact hsystem.stream f hfault
      · rintro e rfl
        exact .stream hfault

theorem writeSecret_settles (hsystem : faults.Systemic)
    (h : Reached path faults w (.write secret l) w₁) :
    Settles path faults w (writeSecret faults secret l w₁) := by
  obtain ⟨rfl, hmaking⟩ := h
  unfold writeSecret
  cases hfault : faults.write with
  | none => exact ⟨rfl, l, hmaking.fill _⟩
  | some fault =>
      obtain ⟨kept, i⟩ := fault
      refine interrupted_settles ?_ ?_ (List.take_prefix kept _) (hmaking.fill _)
      · rintro f rfl
        exact hsystem.write kept f hfault
      · rintro e rfl
        exact .write hfault

theorem closeStream_settles (hsystem : faults.Systemic)
    (h : Reached path faults w (.close secret) w₁) :
    Settles path faults w (closeStream faults secret w₁) := by
  obtain ⟨rfl, l, hmaking⟩ := h
  unfold closeStream
  cases hfault : faults.close with
  | none => exact ⟨rfl, l, hmaking⟩
  | some i =>
      refine interrupted_settles ?_ ?_ List.prefix_rfl hmaking
      · rintro f rfl
        exact hsystem.close f hfault
      · rintro e rfl
        exact .close hfault

theorem discardPartial_settles {cause : SystemError}
    (h : Reached path faults w (.discard cause) w₁) :
    Settles path faults w (discardPartial path faults cause w₁) := by
  obtain ⟨hspoiled, l, content, hpart, hmaking⟩ := h
  unfold discardPartial removal
  cases hfault : faults.discard with
  | some d =>
      refine .refused (.abandoned l content d hspoiled hfault hpart hmaking.fileAdded ?_)
      rw [← hmaking.ambient]
      rfl
  | none =>
      obtain ⟨t, hunlink, hmade⟩ := hmaking.unlink
      rw [hunlink]
      exact .refused (.removed hspoiled hfault hmade hmaking.ambient)

theorem hardenFile_settles (h : Reached path faults w (.harden secret) w₁) :
    Settles path faults w (hardenFile path faults secret w₁) := by
  obtain ⟨hsecret, l, hmaking⟩ := h
  unfold hardenFile hardening
  cases hfault : faults.harden with
  | some e =>
      refine .generated (.exposed l e hsecret hfault hmaking.fileAdded ?_)
      rw [← hmaking.ambient]
      rfl
  | none =>
      obtain ⟨t, hchange, hadded⟩ := hmaking.changeMode hardMode
      rw [hchange]
      exact .generated (.hardened l hsecret hfault hadded hmaking.ambient)

/-! ## The run -/

theorem advance_settles (hnul : path.hasNul = false) (hsystem : faults.Systemic) {s : Stage}
    (h : Reached path faults w s w₁) : Settles path faults w (advance path faults s w₁) := by
  cases s with
  | parents =>
      obtain rfl : w₁ = w := h
      exact makeParents_settles hnul
  | check => exact lookForFile_settles hnul h
  | load => exact loadFile_settles h
  | draw => exact drawSecret_settles h
  | create secret => exact createFile_settles hnul h
  | stream secret l => exact openStream_settles hsystem h
  | write secret l => exact writeSecret_settles hsystem h
  | close secret => exact closeStream_settles hsystem h
  | discard cause => exact discardPartial_settles h
  | harden secret => exact hardenFile_settles h

theorem finish_of_next {s s' : Stage} (h : advance path faults s w = (.next s', w')) :
    finish path faults s w = finish path faults s' w' := by
  rw [finish]
  split
  · rename_i hended
    rw [h] at hended
    cases hended
  · rename_i hnext
    rw [h] at hnext
    obtain rfl := Move.next.inj hnext
    exact congrArg (fun led => finish path faults s' led.2) h

theorem finish_of_ended {s : Stage} {result : Except Abort Bytes}
    (h : advance path faults s w = (.ended result, w')) :
    finish path faults s w = (result, w') := by
  rw [finish]
  split
  · rename_i hended
    rw [h] at hended
    obtain rfl := Move.ended.inj hended
    rw [h]
  · rename_i hnext
    rw [h] at hnext
    cases hnext

theorem finish_outcome (hnul : path.hasNul = false) (hsystem : faults.Systemic) {s : Stage}
    (h : Reached path faults w s w₁) :
    Outcome path faults w (finish path faults s w₁).1 (finish path faults s w₁).2 := by
  -- The invariant goes from stage to stage until one of them ends the run.
  fun_induction finish path faults s w₁ with
  | case1 s w₁ result hended =>
      have hstep := advance_settles hnul hsystem h
      rwa [Settles, hended] at hstep
  | case2 s w₁ s' hnext _ ih =>
      have hstep := advance_settles hnul hsystem h
      rw [Settles, hnext] at hstep
      exact ih hstep

/-- A run returns what the file holds, be it an old file or a new one with fresh octets, and a run
that fails names the trouble and leaves no file of its own but one it could not remove. Whatever
was there before stays as it was. -/
theorem ensure_under_faults (path : Path) (faults : Faults) (w : World)
    (hnul : path.hasNul = false) (hsystem : faults.Systemic) :
    ∃ result w', StateT.run (ExceptT.run (ensure path faults)) w = (result, w') ∧
      Outcome path faults w result w' ∧
      (∀ octets, result = .ok octets → w'.files.readFile (toString path) = .ok octets) ∧
      ∀ l e, w.files.lookup l = some e → w'.files.lookup l = some e := by
  have houtcome : Outcome path faults w (finish path faults .parents w).1
      (finish path faults .parents w).2 := finish_outcome hnul hsystem rfl
  refine ⟨_, _, rfl, houtcome, ?_, houtcome.extends_.keeps⟩
  intro octets hok
  rw [hok] at houtcome
  exact houtcome.readFile

/-- A disk with room for three more octets. -/
def fullDisk : Faults where
  write := some (3, .system { code := .noSpace })

/-- A working directory without files. -/
def bare : World where
  ambient := ⟨.ofBytes [7], .ofBytes [], []⟩
  files := .empty ["home"]

theorem ensure_under_faults_full_disk :
    (Path.ofString "data/key").hasNul = false ∧ fullDisk.Systemic ∧
      ∃ result w', StateT.run (ExceptT.run (ensure (Path.ofString "data/key") fullDisk)) bare =
          (result, w') ∧
        Outcome (Path.ofString "data/key") fullDisk bare result w' ∧
        (∀ octets, result = .ok octets →
          w'.files.readFile (toString (Path.ofString "data/key")) = .ok octets) ∧
        ∀ l e, bare.files.lookup l = some e → w'.files.lookup l = some e := by
  have hnul : (Path.ofString "data/key").hasNul = false := by decide
  have hsystem : fullDisk.Systemic := ⟨by nofun, by nofun, by nofun⟩
  exact ⟨hnul, hsystem, ensure_under_faults (Path.ofString "data/key") fullDisk bare hnul hsystem⟩

end Strongbox.KeyFile
