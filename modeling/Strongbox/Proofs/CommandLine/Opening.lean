import Strongbox.CommandLine.Run
import Strongbox.Proofs.Files.Parents
import Strongbox.Proofs.KeyStore

/-! # A handler for the configured key

If the key file holds a key, or is not there and can be made, then a command gets a handler for a
key that the file holds from then on. A file that is there is left alone. -/

namespace Strongbox

namespace KeyFile

open FileTree

variable {path : Path} {faults : Faults} {t : FileTree} {w w' : World}

/-- A key is in the file. -/
def Holds (path : Path) (t : FileTree) (key : Key) : Prop :=
  path.hasNul = false ∧ t.readFile (toString path) = .ok key.bytes

/-- Nothing is there, but a file can be created once the directories around it are made. -/
def Creatable (path : Path) (t : FileTree) : Prop :=
  path.hasNul = false ∧ ∃ made l t', t.ensureDirectory path.parent = (.ok (), made) ∧
    made.pathExists (toString path) = .ok false ∧
      made.createFile (toString path) openMode = .ok (l, t')

theorem length_fresh (w : World) : (fresh w).length = 32 :=
  Entropy.length_draw _ _

/-- There is a key for a run, now or after it. -/
def Available (path : Path) (t : FileTree) : Prop :=
  (∃ key, Holds path t key) ∨ Creatable path t

theorem Available.hasNul {path : Path} {t : FileTree} (h : Available path t) :
    path.hasNul = false := by
  rcases h with ⟨key, hnul, -⟩ | ⟨hnul, -⟩
  · exact hnul
  · exact hnul

/-! ## Stages -/

theorem advance_parents_of_ensureDirectory (hparent : path.parent.hasNul = false)
    (hfault : faults.parents = none) {made : FileTree}
    (h : w.files.ensureDirectory path.parent = (.ok (), made)) :
    advance path faults .parents w = (.next .check, { w with files := made }) := by
  rw [advance, makeParents, if_neg (by simp [hparent]), hfault]
  dsimp only
  rw [h]

/-- A file that is there is read, and none is touched. -/
theorem ensure_of_readFile (hnul : path.hasNul = false) {content : Bytes}
    (hread : w.files.readFile (toString path) = .ok content) :
    lead (ensure path {}) w = (.ok content, w.record .debug s!"Loading secret file {path}") := by
  obtain ⟨l, mode, hlocate⟩ := readFile_eq_ok_iff.mp hread
  have hexists := pathExists_eq_true_iff.mpr ⟨l, _, hlocate⟩
  have hdirectory := isDirectory_parent_of_readFile hread
  have hparents : advance path {} .parents w = (.next .check, w) :=
    advance_parents_of_ensureDirectory (path.parent_reaches.hasNul hnul) rfl
      (ensureDirectory_of_isDirectory hdirectory)
  have hcheck : advance path {} .check w =
      (.next .load, w.record .debug s!"Loading secret file {path}") := by
    rw [advance, lookForFile, if_neg (by simp [hnul]), hexists]
  have hread' : (w.record .debug s!"Loading secret file {path}").files.readFile (toString path) =
      .ok content := hread
  have hload : advance path {} .load (w.record .debug s!"Loading secret file {path}") =
      (.ended (.ok content), w.record .debug s!"Loading secret file {path}") := by
    rw [advance, loadFile, hread']
  change finish path {} .parents w = _
  rw [finish_of_next hparents, finish_of_next hcheck, finish_of_ended hload]

theorem ensure_of_holds {key : Key} (h : Holds path w.files key) :
    lead (ensure path {}) w =
      (.ok key.bytes, w.record .debug s!"Loading secret file {path}") :=
  ensure_of_readFile h.1 h.2

/-- No fault strikes before there is a file. -/
structure Faults.Late (faults : Faults) : Prop where
  parents : faults.parents = none
  check : faults.check = none
  entropy : faults.entropy = none
  rival : faults.rival = none
  create : faults.create = none

/-- Where a file can be created, a run comes so far that it has created one. -/
theorem finish_of_creatable (h : Creatable path w.files) (hlate : faults.Late) :
    ∃ made l a t', made.isDirectory (toString path.parent) = .ok true ∧
      Created (toString path) made l openMode [] t' ∧
        finish path faults .parents w = finish path faults (.stream (fresh w) l) ⟨a, t'⟩ := by
  obtain ⟨hnul, made, l, t', hmade, habsent, hcreate⟩ := h
  have hdirectory := isDirectory_of_ensureDirectory (congrArg Prod.fst hmade)
  rw [hmade] at hdirectory
  have hparents : advance path faults .parents w = (.next .check, { w with files := made }) :=
    advance_parents_of_ensureDirectory (path.parent_reaches.hasNul hnul) hlate.parents hmade
  have hcheck : advance path faults .check { w with files := made } =
      (.next .draw, { w with files := made }) := by
    rw [advance, lookForFile, hlate.check, if_neg (by simp [hnul])]
    dsimp only
    rw [habsent]
  have hdraw : ∃ a, advance path faults .draw { w with files := made } =
      (.next (.create (fresh w)), ⟨a, made⟩) := by
    rw [advance, drawSecret, hlate.entropy]
    exact ⟨_, rfl⟩
  obtain ⟨a, hdraw⟩ := hdraw
  have hcreated : advance path faults (.create (fresh w)) ⟨a, made⟩ =
      (.next (.stream (fresh w) l), ⟨a, t'⟩) := by
    rw [advance, createFile, if_neg (by simp [hnul]), creation, afterRival, hlate.rival,
      hlate.create]
    dsimp only
    rw [hcreate]
    rfl
  refine ⟨made, l, a, t', hdirectory, created_of_createFile hcreate, ?_⟩
  rw [finish_of_next hparents, finish_of_next hcheck, finish_of_next hdraw,
    finish_of_next hcreated]

/-- Without faults a file that has been created is filled and hardened. -/
theorem finish_stream (secret : Bytes) (l : Location) (w : World) :
    (finish path {} (.stream secret l) w).1 = .ok secret := by
  have hstream : advance path {} (.stream secret l) w = (.next (.write secret l), w) := rfl
  have hwrite : advance path {} (.write secret l) w =
      (.next (.close secret), { w with files := w.files.fill l secret }) := rfl
  have hclose : ∀ w', advance path {} (.close secret) w' = (.next (.harden secret), w') :=
    fun _ => rfl
  have hharden : ∀ w', ∃ w'', advance path {} (.harden secret) w' = (.ended (.ok secret), w'') := by
    intro w'
    rw [advance, hardenFile]
    split <;> exact ⟨_, rfl⟩
  obtain ⟨w'', hend⟩ := hharden { w with files := w.files.fill l secret }
  rw [finish_of_next hstream, finish_of_next hwrite, finish_of_next (hclose _),
    finish_of_ended hend]

/-- A key that can be made is made of fresh octets. -/
theorem ensure_of_creatable (h : Creatable path w.files) :
    (lead (ensure path {}) w).1 = .ok (fresh w) := by
  have hlate : ({} : Faults).Late := ⟨rfl, rfl, rfl, rfl, rfl⟩
  obtain ⟨made, l, a, t', -, -, hfinish⟩ := finish_of_creatable h hlate
  change (finish path {} .parents w).1 = _
  rw [hfinish, finish_stream]

/-- A run that ends with a key leaves it in the file. -/
theorem holds_of_ensure (hnul : path.hasNul = false) {key : Key}
    (h : lead (ensure path {}) w = (.ok key.bytes, w')) : Holds path w'.files key := by
  have houtcome : Outcome path {} w (finish path {} .parents w).1 (finish path {} .parents w).2 :=
    finish_outcome hnul ⟨by nofun, by nofun, by nofun⟩ rfl
  change finish path {} .parents w = _ at h
  rw [h] at houtcome
  exact ⟨hnul, houtcome.readFile⟩

/-- Once the directories around a file are made, nothing goes away. -/
theorem ensure_extends (hnul : path.hasNul = false) {made : FileTree}
    (h : w.files.ensureDirectory path.parent = (.ok (), made)) :
    Extends made (lead (ensure path {}) w).2.files := by
  have hparents : advance path {} .parents w = (.next .check, { w with files := made }) :=
    advance_parents_of_ensureDirectory (path.parent_reaches.hasNul hnul) rfl h
  have hreached : Reached path {} { w with files := made } .check { w with files := made } :=
    ⟨.refl _ _, rfl⟩
  change Extends made (finish path {} .parents w).2.files
  rw [finish_of_next hparents]
  exact (finish_outcome hnul ⟨by nofun, by nofun, by nofun⟩ hreached).extends_

/-- What a run that finds or makes a key leaves behind. -/
structure Provided (path : Path) (t t' : FileTree) (key : Key) : Prop where
  holds : Holds path t' key
  extends_ : ∀ made, t.ensureDirectory path.parent = (.ok (), made) → Extends made t'
  /-- A key that is there is left alone, and so is everything else then. -/
  unchanged : ∀ held, Holds path t held → t' = t

theorem ensure_of_available (h : Available path w.files) :
    ∃ key w', lead (ensure path {}) w = (.ok key.bytes, w') ∧
      Provided path w.files w'.files key := by
  have hnul := h.hasNul
  have hkey : ∃ key : Key, (lead (ensure path {}) w).1 = .ok key.bytes := by
    rcases h with ⟨key, hholds⟩ | hcreatable
    · exact ⟨key, congrArg Prod.fst (ensure_of_holds hholds)⟩
    · exact ⟨⟨fresh w, length_fresh w⟩, ensure_of_creatable hcreatable⟩
  obtain ⟨key, hok⟩ := hkey
  have hled : lead (ensure path {}) w = (.ok key.bytes, (lead (ensure path {}) w).2) :=
    Prod.ext hok rfl
  refine ⟨key, _, hled, holds_of_ensure hnul hled, fun _ hmade => ensure_extends hnul hmade, ?_⟩
  intro held hheld
  rw [ensure_of_holds hheld]
  rfl

end KeyFile

namespace CommandLine

open KeyFile

variable {settings : Settings} {w w' : World}

/-- The handler that commands work with. -/
def handlerFor (key : Key) : Handler where
  cipher := { key }
  marker := Handler.standardMarker

theorem lead_openHandler {lock : Location} {key : Key}
    (hlock : w.files.canonical settings.secretPath = .ok lock)
    (hensure : lead (ensure settings.secretPath {}) w = (.ok key.bytes, w')) :
    lead (openHandler settings) w = (.ok (handlerFor key), w'.record .debug "CryptoHandler()") := by
  let store : KeyStore := { path := settings.secretPath, fatal := true, lock, key := none }
  have hmake : lead (KeyStore.make settings.secretPath true) w = (.ok store, w) := by
    rw [KeyStore.make, lead_bind, lead_get]
    dsimp only
    rw [hlock]
    rfl
  have hobtain : store.obtain {} w = (.ok key.bytes, w') := by
    change lead (store.fetch {}) w = _
    rw [KeyStore.fetch, if_pos rfl, lead_ensureOrExit_of_ok hensure]
  rw [openHandler, lead_bind, hmake]
  change ((lead (KeyStore.handler Handler.standardMarker {}) ⟨store, w⟩).1,
    (lead (KeyStore.handler Handler.standardMarker {}) ⟨store, w⟩).2.world) = _
  rw [KeyStore.lead_handler_of_length hobtain key.length_eq]
  rfl

end CommandLine

end Strongbox
