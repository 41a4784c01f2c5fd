import Strongbox.Proofs.CommandLine.RoundTrip
import Strongbox.Proofs.KeyFile.Reporting

/-! # What a command does to files

However a command ends, all files that were there are there and as they were. What is new is the
key file with a whole key in it, or a directory on the way to it. -/

namespace Strongbox

open FileTree

/-- All that was there is kept. What is new is a file at the path with a whole key in it, for its
owner to read, or a directory that an outer path leads to. -/
structure Framed (p : Path) (t t' : FileTree) : Prop where
  workingDirectory : t'.workingDirectory = t.workingDirectory
  kept : ∀ l e, t.lookup l = some e → t'.lookup l = some e
  added : ∀ l e, t.lookup l = none → t'.lookup l = some e →
    (e = .directory directoryMode ∧
      ∃ q : Path, q.Reaches p.parent ∧ t'.locate .entry (toString q) = .ok (.found l e)) ∨
    ∃ octets, octets.length = 32 ∧ e = .file KeyFile.hardMode octets ∧
      t'.locate .entry (toString p) = .ok (.found l e)

namespace Framed

variable {p : Path} {t t' : FileTree}

theorem of_directories (h : DirectoriesMade p.parent t t') : Framed p t t' :=
  ⟨h.extends_.workingDirectory, h.extends_.keeps,
    fun l e hnone he => .inl (h.made l e hnone he)⟩

theorem refl (p : Path) (t : FileTree) : Framed p t t :=
  of_directories (.refl p.parent t)

theorem of_fileAdded {l : Location} {octets : Bytes}
    (h : KeyFile.FileAdded p t l KeyFile.hardMode octets t') (hlength : octets.length = 32) :
    Framed p t t' := by
  refine ⟨h.extends_.workingDirectory, h.extends_.keeps, ?_⟩
  intro l' e hnone he
  obtain ⟨made, hmade, hvacant, hset⟩ := h.added
  by_cases hl : l' = l
  · subst hl
    obtain rfl := Option.some.inj (hset.lookup_self.symm.trans he)
    exact .inr ⟨octets, hlength, rfl, h.found⟩
  · rw [hset.lookup_other hl] at he
    obtain ⟨hdirectory, q, hq, hlocate⟩ := hmade.made l' e hnone he
    exact .inl ⟨hdirectory, q, hq, locate_found_extend hlocate (hset.extends_file hvacant)⟩

end Framed

/-! ## Runs on the key file -/

namespace KeyFile

variable {path : Path}

theorem framed_of_refused {e : SystemError} {w w' : World} (h : Refused path {} w e w') :
    Framed path w.files w'.files := by
  cases h with
  | early _ directories _ => exact .of_directories directories
  | uncreated _ directories _ => exact .of_directories directories
  | beaten l content hrival _ _ _ => cases hrival
  | removed _ _ directories _ => exact .of_directories directories
  | abandoned l content d _ hdiscard _ _ _ => cases hdiscard

/-- Without faults, a run leaves a whole file of its own or none. -/
theorem framed_finish (path : Path) (w : World) :
    Framed path w.files (finish path {} .parents w).2.files := by
  cases hnul : path.hasNul with
  | true =>
      rcases meetsNul_or_failsWith {} w hnul with ⟨w', hmeets⟩ | ⟨e, w', hrefused, hfinish⟩
      · rw [finish_of_meetsNul hmeets]
        exact .of_directories hmeets.directories
      · rw [hfinish]
        exact framed_of_refused hrefused
  | false =>
      have houtcome :
          Outcome path {} w (finish path {} .parents w).1 (finish path {} .parents w).2 :=
        finish_outcome hnul ⟨by nofun, by nofun, by nofun⟩ rfl
      generalize finish path {} .parents w = led at houtcome
      obtain ⟨result, w'⟩ := led
      cases houtcome with
      | loaded h => exact .of_directories h.directories
      | generated h =>
          cases h with
          | hardened l hfresh _ file _ => exact .of_fileAdded file (hfresh ▸ length_fresh w)
          | exposed l e _ hharden _ _ => cases hharden
      | refused h => exact framed_of_refused h

end KeyFile

/-! ## Getting a handler -/

namespace KeyStore

variable {marker : String} {faults : KeyFile.Faults}

theorem files_fetch (s : KeyStore) (w : World) :
    (lead (s.fetch faults) w).2.files = (KeyFile.finish s.path faults .parents w).2.files := by
  have hensure : lead (KeyFile.ensure s.path faults) w = KeyFile.finish s.path faults .parents w :=
    rfl
  rw [fetch]
  split
  · rw [KeyFile.ensureOrExit, lead_tryCatch, hensure]
    split
    · rename_i key w' hfinish
      rw [hfinish]
    · rename_i a w' hfinish
      rw [hfinish]
      cases a <;> rfl
  · rw [hensure]

theorem files_handler {c : Custody} (hkey : c.store.key = none) :
    (lead (handler marker faults) c).2.world.files =
      (KeyFile.finish c.store.path faults .parents c.world).2.files := by
  have hload : (lead (load faults) c).2.world.files =
      (lead (c.store.fetch faults) c.world).2.files := by
    rw [lead_load, obtain, hkey]
  have hrest : files (lead (handler marker faults) c).2 = files (lead (load faults) c).2 := by
    refine Leaves.after_bind (fun key => ?_) c
    split
    · exact fun _ => rfl
    · exact .throw _
  exact hrest.trans (hload.trans (files_fetch c.store c.world))

end KeyStore

namespace CommandLine

variable {σ : Type} [ChoiceSource σ] {settings : Settings}

theorem framed_openHandler (settings : Settings) (w : World) :
    Framed settings.secretPath w.files (lead (openHandler settings) w).2.files := by
  rw [openHandler, KeyStore.make, lead_bind, lead_bind, lead_get]
  dsimp only
  cases w.files.canonical settings.secretPath with
  | error m => exact .refl _ _
  | ok lock =>
      have hfiles : (lead (KeyStore.handler Handler.standardMarker {})
          ⟨⟨settings.secretPath, true, lock, none⟩, w⟩).2.world.files =
            (KeyFile.finish settings.secretPath {} .parents w).2.files :=
        KeyStore.files_handler rfl
      have hframed := KeyFile.framed_finish settings.secretPath w
      rw [← hfiles] at hframed
      exact hframed

/-! ## Running a command -/

theorem leaves_print (line : String) : Leaves (files : Terminal → FileTree) (print line) :=
  .modify fun _ => rfl

theorem leaves_perform {α : Type} (t : Task α) :
    Leaves (files : Terminal → FileTree) (perform t.inWorld) :=
  fun _ => rfl

theorem leaves_showEncrypted (h : Handler) (text : String) :
    Leaves (files : Terminal → FileTree) (showEncrypted h text) :=
  (leaves_print _).bind fun _ => (leaves_perform _).bind fun _ => leaves_print _

theorem leaves_showDecrypted (h : Handler) (text : String) :
    Leaves (files : Terminal → FileTree) (showDecrypted h text) :=
  (leaves_print _).bind fun _ => (leaves_perform _).bind fun _ => leaves_print _

theorem framed_execute (settings : Settings) (source : σ) (c : Command) (t : Terminal) :
    Framed settings.secretPath t.world.files
      (lead (execute settings source c) t).2.world.files := by
  have hrest : files (lead (execute settings source c) t).2 =
      files (lead (perform (openHandler settings)) t).2 := by
    refine Leaves.after_bind (fun h => ?_) t
    cases c with
    | version => exact .pure _
    | encrypt text => exact leaves_showEncrypted h text
    | decrypt encrypted => exact leaves_showDecrypted h encrypted
    | password length =>
        dsimp only
        split
        · exact .throw _
        · exact (leaves_print _).bind fun _ => leaves_showEncrypted h _
  have hframed : Framed settings.secretPath t.world.files
      (files (lead (perform (openHandler settings)) t).2) := framed_openHandler settings t.world
  rw [← hrest] at hframed
  exact hframed

theorem framed_runCommand (source : σ) (c : Command) (w : World) :
    Framed settings.secretPath w.files (runCommand settings source c w).2.files := by
  have hframed := framed_execute settings source c (blankTerminal w)
  have hfiles : (runCommand settings source c w).2.files =
      (lead (execute settings source c) (blankTerminal w)).2.world.files := by
    unfold lead blankTerminal runCommand
    dsimp only
    generalize StateT.run (ExceptT.run (execute settings source c)) _ = led
    obtain ⟨result, t⟩ := led
    cases result with
    | ok u => rfl
    | error a =>
        cases a with
        | exit f => rfl
        | _ =>
            dsimp only
            split <;> rfl
  rw [hfiles]
  exact hframed

/-- Where no key is needed, or the settings are refused, nothing is done at all. In all other
cases, and however they end, what was there stays as it was, and only the key file and directories
around it are new. -/
theorem run_framed (arguments : List String) (environment : String → Option String) (source : σ)
    (w : World) :
    ((∀ c, read arguments = .run c → c = .version) ∨
        (∃ errors, Settings.ofVariables environment = .error errors) →
      ∃ ending, run arguments environment source w = (.ok ending, w)) ∧
    ∀ settings, Settings.ofVariables environment = .ok settings →
      Framed settings.secretPath w.files (run arguments environment source w).2.files := by
  constructor
  · intro h
    rw [run]
    cases hread : read arguments with
    | refused t e => exact ⟨_, rfl⟩
    | help t => exact ⟨_, rfl⟩
    | nothing => exact ⟨_, rfl⟩
    | run c =>
        rcases h with hversion | ⟨errors, herrors⟩
        · obtain rfl := hversion c hread
          exact ⟨_, rfl⟩
        · cases c with
          | version => exact ⟨_, rfl⟩
          | _ =>
              dsimp only
              rw [herrors]
              exact ⟨_, rfl⟩
  · intro settings hsettings
    rw [run]
    cases hread : read arguments with
    | refused t e => exact .refl _ _
    | help t => exact .refl _ _
    | nothing => exact .refl _ _
    | run c =>
        cases c with
        | version => exact .refl _ _
        | _ =>
            dsimp only
            rw [hsettings]
            exact framed_runCommand source _ w

/-- No text to encrypt, no path to a key, and a length that no password has. -/
theorem run_framed_negative_length :
    (∀ c, read ["encrypt"] = .run c → c = .version) ∧
      (∃ ending, run ["encrypt"] (keyAt "data/key") firstChoices bare = (.ok ending, bare)) ∧
    Settings.ofVariables (keyAt ".") = .error [⟨.secretPath, .emptyPath⟩] ∧
      (∃ ending, run ["pwgen", "-1"] (keyAt ".") firstChoices bare = (.ok ending, bare)) ∧
    Settings.ofVariables (keyAt "data/key") =
        .ok { Settings.default with secretPath := .ofString "data/key" } ∧
      Framed (.ofString "data/key") bare.files
        (run ["pwgen", "-1"] (keyAt "data/key") firstChoices bare).2.files := by
  have hread : ∀ c, read ["encrypt"] = .run c → c = .version := by
    have hrefused : read ["encrypt"] = .refused .encrypt (.missing "text") := by cbv
    intro c hc
    rw [hrefused] at hc
    cases hc
  have herror : Settings.ofVariables (keyAt ".") = .error [⟨.secretPath, .emptyPath⟩] := by
    decide
  have hok : Settings.ofVariables (keyAt "data/key") =
      .ok { Settings.default with secretPath := .ofString "data/key" } :=
    ofVariables_keyAt (by decide) (by decide)
  exact ⟨hread, (run_framed ["encrypt"] (keyAt "data/key") firstChoices bare).1 (.inl hread),
    herror, (run_framed ["pwgen", "-1"] (keyAt ".") firstChoices bare).1 (.inr ⟨_, herror⟩),
    hok, (run_framed ["pwgen", "-1"] (keyAt "data/key") firstChoices bare).2 _ hok⟩

end CommandLine

end Strongbox
