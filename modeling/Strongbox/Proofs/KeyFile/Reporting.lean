import Strongbox.Proofs.KeyFile.Interruption

/-! # How trouble with the key file is reported

A run ends with octets or with the trouble as its failure. The start of a process then ends with the
same octets, or it logs the failure as its only error and gives up. What neither of them reports is
that no file can have the path: a NUL in it passes through both. -/

namespace Strongbox

namespace Ambient

variable {a a' : Ambient} {errors : List LogRecord}

/-- All records are kept, and of those that were added the errors are these. -/
def AddsErrors (a a' : Ambient) (errors : List LogRecord) : Prop :=
  ∃ records, a'.log = a.log ++ records ∧ records.filter (·.level = .error) = errors

theorem addsErrors_of_log_eq (h : a'.log = a.log) : a.AddsErrors a' [] :=
  ⟨[], h.trans (List.append_nil _).symm, rfl⟩

namespace AddsErrors

theorem record_error (h : a.AddsErrors a' errors) (message : String) :
    a.AddsErrors (a'.record .error message) (errors ++ [⟨.error, message⟩]) := by
  obtain ⟨records, hlog, rfl⟩ := h
  refine ⟨records ++ [⟨.error, message⟩], ?_, ?_⟩
  · rw [record, hlog, List.append_assoc]
  · rw [List.filter_append]
    rfl

theorem record_of_ne (h : a.AddsErrors a' errors) {level : Level} (hlevel : level ≠ .error)
    (message : String) : a.AddsErrors (a'.record level message) errors := by
  obtain ⟨records, hlog, rfl⟩ := h
  refine ⟨records ++ [⟨level, message⟩], ?_, ?_⟩
  · rw [record, hlog, List.append_assoc]
  · simp [hlevel]

end AddsErrors

end Ambient

namespace KeyFile

open FileTree

variable {path : Path} {faults : Faults} {w w' : World} {e : SystemError}

/-! ## A run logs no error -/

theorem addsErrors_whileLoading (path : Path) (w : World) :
    w.ambient.AddsErrors (whileLoading path w) [] :=
  (Ambient.addsErrors_of_log_eq rfl).record_of_ne (by decide) _

theorem addsErrors_whileWriting (path : Path) (w : World) :
    w.ambient.AddsErrors (whileWriting path w) [] :=
  Ambient.AddsErrors.record_of_ne (Ambient.addsErrors_of_log_eq rfl) (by decide) _

/-- A warning is no error. -/
theorem Refused.addsErrors (h : Refused path faults w e w') :
    w.ambient.AddsErrors w'.ambient [] := by
  cases h with
  | early _ _ ambient =>
      rcases ambient with ambient | ambient
      · exact Ambient.addsErrors_of_log_eq (congrArg Ambient.log ambient)
      · rw [ambient]
        exact addsErrors_whileLoading path w
  | uncreated _ _ ambient =>
      rw [ambient]
      exact addsErrors_whileWriting path w
  | beaten _ _ _ _ _ ambient =>
      rw [ambient]
      exact addsErrors_whileWriting path w
  | removed _ _ _ ambient =>
      rw [ambient]
      exact addsErrors_whileWriting path w
  | abandoned _ _ _ _ _ _ _ ambient =>
      rw [ambient]
      exact (addsErrors_whileWriting path w).record_of_ne (by decide) _

theorem Outcome.addsErrors {result : Except Abort Bytes} (h : Outcome path faults w result w') :
    w.ambient.AddsErrors w'.ambient [] := by
  cases h with
  | loaded h =>
      rw [h.ambient]
      exact addsErrors_whileLoading path w
  | generated h =>
      cases h with
      | hardened _ _ _ _ ambient =>
          rw [ambient]
          exact addsErrors_whileWriting path w
      | exposed _ _ _ _ _ ambient =>
          rw [ambient]
          exact (addsErrors_whileWriting path w).record_of_ne (by decide) _
  | refused h => exact h.addsErrors

/-! ## Paths that no file can have -/

/-- What a run has done when it meets the NUL in its path: nothing if a directory has it in its
name, but if only the file does, all that comes before the creation. -/
inductive MeetsNul (path : Path) (faults : Faults) (w : World) : World → Prop
  | directory (h : path.parent.hasNul = true) : MeetsNul path faults w w
  | file {made : FileTree} (h : path.hasNul = true) (hparent : path.parent.hasNul = false)
      (hparents : faults.parents = none) (hcheck : faults.check = none)
      (hentropy : faults.entropy = none)
      (hmade : w.files.ensureDirectory path.parent = (.ok (), made)) :
      MeetsNul path faults w ⟨whileWriting path w, made⟩

namespace MeetsNul

theorem directories (h : MeetsNul path faults w w') :
    DirectoriesMade path.parent w.files w'.files := by
  cases h with
  | directory _ => exact .refl _ _
  | file _ _ _ _ _ hmade =>
      have hdirectories := ensureDirectory_made w.files path.parent
      rwa [hmade] at hdirectories

theorem addsErrors (h : MeetsNul path faults w w') : w.ambient.AddsErrors w'.ambient [] := by
  cases h with
  | directory _ => exact Ambient.addsErrors_of_log_eq rfl
  | file _ _ _ _ _ _ => exact addsErrors_whileWriting path w

end MeetsNul

/-- A file that cannot be is not there. -/
theorem advance_check_of_hasNul (hnul : path.hasNul = true) (hcheck : faults.check = none)
    (w : World) : advance path faults .check w = (.next .draw, w) := by
  rw [advance, lookForFile, hcheck, if_pos hnul]

theorem finish_of_meetsNul (h : MeetsNul path faults w w') :
    finish path faults .parents w = (.error (.misuse .nulInPath), w') := by
  cases h with
  | directory hparent =>
      have hmisused : advance path faults .parents w = (.misused .nulInPath, w) := by
        rw [advance, makeParents, if_pos hparent]
      exact finish_of_ended hmisused
  | @file made hnul hparent hparents hcheck hentropy hmade =>
      have hdraw : advance path faults .draw { w with files := made } =
          (.next (.create (fresh w)), ⟨whileWriting path w, made⟩) := by
        rw [advance, drawSecret, hentropy]
        rfl
      have hmisused : advance path faults (.create (fresh w)) ⟨whileWriting path w, made⟩ =
          (.misused .nulInPath, ⟨whileWriting path w, made⟩) := by
        rw [advance, createFile, if_pos hnul]
      rw [finish_of_next (advance_parents_of_ensureDirectory hparent hparents hmade),
        finish_of_next (advance_check_of_hasNul hnul hcheck _), finish_of_next hdraw,
        finish_of_ended hmisused]

/-- The run fails with this trouble. -/
def FailsWith (path : Path) (faults : Faults) (w : World) (e : SystemError) (w' : World) : Prop :=
  Refused path faults w e w' ∧
    finish path faults .parents w = (.error (.failure (.keyStore (toString path) e)), w')

/-- A run makes its directories or fails with them. -/
theorem directories_or_failsWith (faults : Faults) (w : World)
    (hparent : path.parent.hasNul = false) :
    (faults.parents = none ∧ ∃ made, w.files.ensureDirectory path.parent = (.ok (), made)) ∨
      ∃ e w', FailsWith path faults w e w' := by
  cases hparents : faults.parents with
  | some e =>
      have hfails : advance path faults .parents w = (.unusable path e, w) := by
        rw [advance, makeParents, if_neg (by simp [hparent]), hparents]
      exact .inr ⟨e, w, .early (.parents hparents) (.refl _ _) (.inl rfl), finish_of_ended hfails⟩
  | none =>
      have hdirectories := ensureDirectory_made w.files path.parent
      rcases hmade : w.files.ensureDirectory path.parent with ⟨e | u, made⟩
      · rw [hmade] at hdirectories
        have hfails : advance path faults .parents w =
            (.unusable path e, { w with files := made }) := by
          rw [advance, makeParents, if_neg (by simp [hparent]), hparents]
          dsimp only
          rw [hmade]
        exact .inr ⟨e, { w with files := made },
          .early (.noDirectory hmade) hdirectories (.inl rfl), finish_of_ended hfails⟩
      · exact .inl ⟨rfl, made, rfl⟩

/-- A run with a NUL in its path meets it unless it fails before that. -/
theorem meetsNul_or_failsWith (faults : Faults) (w : World) (hnul : path.hasNul = true) :
    (∃ w', MeetsNul path faults w w') ∨ ∃ e w', FailsWith path faults w e w' := by
  cases hparent : path.parent.hasNul with
  | true => exact .inl ⟨w, .directory hparent⟩
  | false =>
      rcases directories_or_failsWith faults w hparent with ⟨hparents, made, hmade⟩ | hfails
      · have hdirectories := ensureDirectory_made w.files path.parent
        rw [hmade] at hdirectories
        have hnext := finish_of_next (advance_parents_of_ensureDirectory hparent hparents hmade)
        cases hcheck : faults.check with
        | some e =>
            have hfails : advance path faults .check { w with files := made } =
                (.unusable path e, { w with files := made }) := by
              rw [advance, lookForFile, hcheck]
            exact .inr ⟨e, { w with files := made }, .early (.check hcheck) hdirectories (.inl rfl),
              hnext.trans (finish_of_ended hfails)⟩
        | none =>
            have hlook := advance_check_of_hasNul hnul hcheck { w with files := made }
            cases hentropy : faults.entropy with
            | some e =>
                have hfails : advance path faults .draw { w with files := made } =
                    (.unusable path e, { w with files := made }) := by
                  rw [advance, drawSecret, hentropy]
                exact .inr ⟨e, { w with files := made },
                  .early (.entropy hentropy) hdirectories (.inl rfl),
                  (hnext.trans (finish_of_next hlook)).trans (finish_of_ended hfails)⟩
            | none => exact .inl ⟨_, .file hnul hparent hparents hcheck hentropy hmade⟩
      · exact .inr hfails

/-! ## A run and the start of a process -/

/-- What a run and the start of a process come to on the same path and world. -/
inductive Agree (path : Path) (faults : Faults) (w : World) :
    Except Abort Bytes × World → Except Abort Bytes × World → Prop
  | octets {octets : Bytes} {w' : World} (hnul : path.hasNul = false)
      (h : Outcome path faults w (.ok octets) w') (quiet : w.ambient.AddsErrors w'.ambient []) :
      Agree path faults w (.ok octets, w') (.ok octets, w')
  | unusable {e : SystemError} {w' : World} (h : Refused path faults w e w')
      (quiet : w.ambient.AddsErrors w'.ambient [])
      (reported : w.ambient.AddsErrors (w'.record .error (report path e)).ambient
        [⟨.error, report path e⟩]) :
      Agree path faults w (.error (.failure (.keyStore (toString path) e)), w')
        (.error (.exit (.keyStore (toString path) e)), w'.record .error (report path e))
  /-- Nothing is reported. -/
  | nul {w' : World} (hnul : path.hasNul = true) (h : MeetsNul path faults w w')
      (quiet : w.ambient.AddsErrors w'.ambient []) :
      Agree path faults w (.error (.misuse .nulInPath), w') (.error (.misuse .nulInPath), w')

theorem agree_of_failsWith (h : FailsWith path faults w e w') :
    Agree path faults w (lead (ensure path faults) w) (lead (ensureOrExit path faults) w) := by
  obtain ⟨hrefused, hfinish⟩ := h
  have hrun : lead (ensure path faults) w =
      (.error (.failure (.keyStore (toString path) e)), w') := hfinish
  rw [lead_ensureOrExit_of_unusable hrun, hrun]
  exact .unusable hrefused hrefused.addsErrors (hrefused.addsErrors.record_error _)

/-- On every path and in every world a run and the start of a process agree: both end with the same
octets and log no error, or the run fails with the trouble and logs no error, and the start logs one
and gives up for this very failure. Only a run that meets a NUL in the path reports nothing, and
then the start does not either. -/
theorem ensure_agrees (path : Path) (faults : Faults) (w : World) (hsystem : faults.Systemic) :
    Agree path faults w (lead (ensure path faults) w) (lead (ensureOrExit path faults) w) ∧
    ∀ w', lead (ensure path faults) w = (.error (.misuse .nulInPath), w') ↔
      MeetsNul path faults w w' := by
  have hagree : Agree path faults w (lead (ensure path faults) w)
      (lead (ensureOrExit path faults) w) := by
    cases hnul : path.hasNul with
    | true =>
        rcases meetsNul_or_failsWith faults w hnul with ⟨w', hmeets⟩ | ⟨e, w', hfails⟩
        · have hrun : lead (ensure path faults) w = (.error (.misuse .nulInPath), w') :=
            finish_of_meetsNul hmeets
          rw [lead_ensureOrExit_of_misuse hrun, hrun]
          exact .nul hnul hmeets hmeets.addsErrors
        · exact agree_of_failsWith hfails
    | false =>
        have houtcome : Outcome path faults w (lead (ensure path faults) w).1
            (lead (ensure path faults) w).2 := finish_outcome hnul hsystem rfl
        rcases hrun : lead (ensure path faults) w with ⟨a | octets, w'⟩
        · rw [hrun] at houtcome
          rw [← hrun]
          cases houtcome with
          | refused hrefused => exact agree_of_failsWith ⟨hrefused, hrun⟩
        · rw [hrun] at houtcome
          rw [lead_ensureOrExit_of_ok hrun]
          exact .octets hnul houtcome houtcome.addsErrors
  refine ⟨hagree, fun w' => ⟨?_, finish_of_meetsNul⟩⟩
  intro hrun
  rw [hrun] at hagree
  generalize lead (ensureOrExit path faults) w = started at hagree
  cases hagree with
  | nul _ h _ => exact h

/-- A disk that fills up is reported by both, and by the start of a process in the log. -/
theorem ensure_agrees_full_disk :
    fullDisk.Systemic ∧
    (Agree (.ofString "key") fullDisk bare (lead (ensure (.ofString "key") fullDisk) bare)
      (lead (ensureOrExit (.ofString "key") fullDisk) bare) ∧
      ∀ w', lead (ensure (.ofString "key") fullDisk) bare = (.error (.misuse .nulInPath), w') ↔
        MeetsNul (.ofString "key") fullDisk bare w') ∧
    ∃ w', lead (ensure (.ofString "key") fullDisk) bare =
        (.error (.failure (.keyStore "key" { code := .noSpace })), w') ∧
      lead (ensureOrExit (.ofString "key") fullDisk) bare =
        (.error (.exit (.keyStore "key" { code := .noSpace })), w'.record .error
          "ERROR: secret file: Secret file key is not usable: [Errno 28] No space left on device") := by
  have hsystem : fullDisk.Systemic := ⟨nofun, nofun, nofun⟩
  have hstrikes : fullDisk.Interrupts (fresh bare) (.system { code := .noSpace })
      ((fresh bare).take 3) := .write rfl rfl
  obtain ⟨w', hrun, -⟩ := ensure_of_system creatable_key ⟨rfl, rfl, rfl, rfl, rfl⟩ rfl hstrikes
  exact ⟨hsystem, ensure_agrees (.ofString "key") fullDisk bare hsystem, w', hrun,
    lead_ensureOrExit_of_unusable hrun⟩

/-- No file can have this name, and neither reports it, though octets were drawn for the key. -/
theorem ensure_lets_nul_through :
    ∃ w', lead (ensure (.ofString "a\x00b") {}) bare = (.error (.misuse .nulInPath), w') ∧
      lead (ensureOrExit (.ofString "a\x00b") {}) bare = (.error (.misuse .nulInPath), w') ∧
      w'.files = bare.files ∧ w'.ambient.entropy = (bare.ambient.entropy.draw 32).2 ∧
      w'.ambient.log = [⟨.info, "Writing secret file a\x00b"⟩] := by
  have hmeets : MeetsNul (.ofString "a\x00b") {} bare
      ⟨whileWriting (.ofString "a\x00b") bare, bare.files⟩ :=
    .file (by decide) (by decide) rfl rfl rfl (ensureDirectory_of_isDirectory rfl)
  have hrun : lead (ensure (.ofString "a\x00b") {}) bare =
      (.error (.misuse .nulInPath), ⟨whileWriting (.ofString "a\x00b") bare, bare.files⟩) :=
    finish_of_meetsNul hmeets
  exact ⟨_, hrun, lead_ensureOrExit_of_misuse hrun, rfl, rfl, by decide⟩

end KeyFile

end Strongbox
