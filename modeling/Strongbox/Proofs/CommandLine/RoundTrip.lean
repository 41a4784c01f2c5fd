import Strongbox.Proofs.CommandLine.Arguments
import Strongbox.Proofs.CommandLine.Opening
import Strongbox.Proofs.Files.Climbing
import Strongbox.Proofs.MarkedText
import Strongbox.Proofs.Numerals
import Strongbox.Proofs.Password
import Strongbox.Proofs.Session.Acts

/-! # From one process to the next

What one process prints as encrypted, a later one turns back into the text, with the key that the
first one found or made. -/

namespace Strongbox.CommandLine

open KeyFile

variable {σ : Type} [ChoiceSource σ] {settings : Settings} {environment : String → Option String}
  {source : σ} {c : Command} {w w' : World} {text : String} {key : Key}

/-! ## What commands print -/

/-- A text as a handler for the key encrypts it under a vector. -/
def encryptedUnder (key : Key) (iv : Bytes) (text : String) : String :=
  Handler.standardMarker ++ Base64.encode (Envelope.close key iv (Utf8.encode text))

theorem text_title : "text" ++ " = \"" = "text = \"" := by
  decide

theorem encrypted_title : "encrypted text" ++ " = \"" = "encrypted text = \"" := by
  decide

/-- Two lines as they are printed one after the other. -/
theorem print_lines (front text text' : String) {title title' first second : String}
    (h : title ++ " = \"" = first) (h' : title' ++ " = \"" = second) :
    front ++ quoteLine title text ++ "\n" ++ quoteLine title' text' ++ "\n" =
      front ++ first ++ text ++ "\"\n" ++ second ++ text' ++ "\"\n" := by
  have hend : "\"\n" = "\"" ++ "\n" := by decide
  simp only [quoteLine, ← h, ← h', hend, String.append_assoc]

theorem lead_showEncrypted_of_size (hsize : text.utf8ByteSize ≤ Cipher.maxPlaintext)
    (t : Terminal) :
    lead (showEncrypted (handlerFor key) text) t =
      (.ok (),
        { world :=
            { t.world with
              ambient :=
                { t.world.ambient with
                  entropy := (t.world.ambient.entropy.draw Envelope.ivSize).2 } }
          output :=
            t.output ++ "text = \"" ++ text ++ "\"\n" ++ "encrypted text = \"" ++
              encryptedUnder key (t.world.ambient.entropy.draw Envelope.ivSize).1 text ++
                "\"\n" }) := by
  rw [← print_lines _ _ _ text_title encrypted_title]
  have hencrypt : lead ((handlerFor key).encryptText (.text text)) t.world.ambient = _ :=
    Handler.perform_encryptText rfl hsize t.world.ambient
  rw [showEncrypted, print, lead_bind, lead_modify]
  dsimp only
  rw [lead_bind, lead_perform, lead_inWorld]
  dsimp only
  rw [hencrypt]
  rfl

theorem lead_showDecrypted {iv : Bytes} (hiv : iv.length = Envelope.ivSize) (t : Terminal) :
    lead (showDecrypted (handlerFor key) (encryptedUnder key iv text)) t =
      (.ok (),
        { t with
          output := t.output ++ "encrypted text = \"" ++ encryptedUnder key iv text ++ "\"\n" ++
            "text = \"" ++ text ++ "\"\n" }) := by
  rw [← print_lines _ _ _ encrypted_title text_title]
  have hdecrypt : lead ((handlerFor key).decryptText (.text (encryptedUnder key iv text)))
      t.world.ambient = (.ok (.text text), t.world.ambient) := by
    have hplain := Cipher.perform_decryptText_encode (c := (handlerFor key).cipher) rfl hiv text
      t.world.ambient
    have happend := Handler.perform_decryptText_append (h := handlerFor key)
      (Base64.encode (Envelope.close (handlerFor key).cipher.key iv (Utf8.encode text)))
      t.world.ambient
    rw [hplain] at happend
    exact happend
  rw [showDecrypted, print, lead_bind, lead_modify]
  dsimp only
  rw [lead_bind, lead_perform, lead_inWorld]
  dsimp only
  rw [hdecrypt]
  rfl

/-! ## Runs -/

theorem runCommand_eq {t : Terminal}
    (h : lead (execute settings source c) (blankTerminal w) = (.ok (), t)) :
    runCommand settings source c w =
      (.ok ⟨0, false, t.output, logLines settings.logLevel t.world.ambient.log⟩,
        { t.world with ambient := { t.world.ambient with log := w.ambient.log } }) := by
  unfold lead blankTerminal at h
  unfold runCommand
  dsimp only at h ⊢
  rw [h]

/-- An abort is reported, or else it is what the run comes to. -/
theorem runCommand_of_abort {a : Abort} {t : Terminal} (ha : ∀ f, a ≠ .exit f)
    (h : lead (execute settings source c) (blankTerminal w) = (.error a, t)) :
    (runCommand settings source c w).1 =
      match reported? a with
      | some message => .ok ⟨1, false, t.output ++ message ++ "\n",
          logLines settings.logLevel t.world.ambient.log⟩
      | none => .error a := by
  unfold lead blankTerminal at h
  unfold runCommand
  dsimp only at h ⊢
  rw [h]
  cases a with
  | exit f => exact absurd rfl (ha f)
  | _ =>
      dsimp only
      generalize reported? _ = message
      cases message <;> rfl

theorem run_of_read (hsettings : Settings.ofVariables environment = .ok settings)
    {arguments : List String} (hread : read arguments = .run c) (hc : c ≠ .version) :
    run arguments environment source w = runCommand settings source c w := by
  rw [run, hread]
  cases c with
  | version => exact absurd rfl hc
  | _ =>
      dsimp only
      rw [hsettings]

/-- What is left to do once there is a handler. -/
theorem lead_execute_encrypt (source : σ)
    (h : lead (openHandler settings) (blankTerminal w).world = (.ok (handlerFor key), w')) :
    lead (execute settings source (.encrypt text)) (blankTerminal w) =
      lead (showEncrypted (handlerFor key) text) ⟨w', ""⟩ := by
  rw [execute, lead_bind, lead_perform, h]
  rfl

theorem lead_execute_decrypt (source : σ)
    (h : lead (openHandler settings) (blankTerminal w).world = (.ok (handlerFor key), w')) :
    lead (execute settings source (.decrypt text)) (blankTerminal w) =
      lead (showDecrypted (handlerFor key) text) ⟨w', ""⟩ := by
  rw [execute, lead_bind, lead_perform, h]
  rfl

theorem lead_execute_password {n : Int}
    (hgenerate : (Password.generate Password.standardAlphabet.toList n source).1 = .ok text)
    (h : lead (openHandler settings) (blankTerminal w).world = (.ok (handlerFor key), w')) :
    lead (execute settings source (.password (some n))) (blankTerminal w) =
      lead (showEncrypted (handlerFor key) text) ⟨w', "random password\n"⟩ := by
  rw [execute, lead_bind, lead_perform, h]
  dsimp only [Option.getD]
  rw [hgenerate]
  rfl

theorem read_numeral {n : Nat} (hn : n ≤ 2 ^ 31) :
    read ["pwgen", toString n] = .run (.password (some n)) := by
  have hfew : 10 ^ 10 ≤ 10 ^ Text.maxDigits := Nat.pow_le_pow_right (by decide) (by decide)
  rw [read_password (Text.head?_toString_ne n),
    Text.integer?_toString (Nat.lt_of_lt_of_le (by omega) hfew)]

theorem read_decrypt_encrypted (iv : Bytes) :
    read ["decrypt", encryptedUnder key iv text] =
      .run (.decrypt (encryptedUnder key iv text)) := by
  apply read_decrypt
  rw [encryptedUnder, String.toList_append]
  simp [Handler.standardMarker]

/-- Every process with these files, whatever its random source, turns the encrypted text back. It
prints both texts and leaves its world as it is: no file is changed and no entropy drawn. -/
def TurnsBack (environment : String → Option String) (files : FileTree)
    (encrypted text : String) : Prop :=
  ∀ (σ : Type) [ChoiceSource σ] (source : σ) (w : World), w.files = files →
    ∃ errors,
      run ["decrypt", encrypted] environment source w =
        (.ok ⟨0, false, "encrypted text = \"" ++ encrypted ++ "\"\n" ++
          "text = \"" ++ text ++ "\"\n", errors⟩, w)

/-- With files that hold the key, what was encrypted under it is turned back. -/
theorem turnsBack_of_holds (hsettings : Settings.ofVariables environment = .ok settings)
    {files : FileTree} {lock : Location} (hlock : files.canonical settings.secretPath = .ok lock)
    (hholds : Holds settings.secretPath files key) {iv : Bytes}
    (hiv : iv.length = Envelope.ivSize) :
    TurnsBack environment files (encryptedUnder key iv text) text := by
  rintro σ _ source w rfl
  have hensure := ensure_of_holds (w := (blankTerminal w).world) hholds
  have hexecute : lead (execute settings source (.decrypt (encryptedUnder key iv text)))
      (blankTerminal w) = _ := lead_execute_decrypt source (lead_openHandler hlock hensure)
  rw [lead_showDecrypted hiv, String.empty_append] at hexecute
  exact ⟨_, (run_of_read hsettings (read_decrypt_encrypted iv) (by nofun)).trans
    (runCommand_eq hexecute)⟩

/-- A command that has a text to encrypt prints it, under the key that the file holds then. -/
theorem runCommand_encrypts {front : String}
    (havailable : Available settings.secretPath w.files)
    {lock : Location} (hlock : w.files.canonical settings.secretPath = .ok lock)
    (hsize : text.utf8ByteSize ≤ Cipher.maxPlaintext)
    (hexecute : ∀ key w', lead (openHandler settings) (blankTerminal w).world =
      (.ok (handlerFor key), w') → lead (execute settings source c) (blankTerminal w) =
        lead (showEncrypted (handlerFor key) text) ⟨w', front⟩) :
    ∃ key iv errors w', iv.length = Envelope.ivSize ∧
      Provided settings.secretPath w.files w'.files key ∧
      runCommand settings source c w =
        (.ok ⟨0, false, front ++ "text = \"" ++ text ++ "\"\n" ++
          "encrypted text = \"" ++ encryptedUnder key iv text ++ "\"\n", errors⟩, w') := by
  obtain ⟨key, w₁, hensure, hprovided⟩ :=
    ensure_of_available (w := (blankTerminal w).world) havailable
  have hrun := hexecute key _ (lead_openHandler hlock hensure)
  rw [lead_showEncrypted_of_size hsize] at hrun
  refine ⟨key, _, _, _, ?_, ?_, runCommand_eq hrun⟩
  · exact Entropy.length_draw _ _
  · exact hprovided

theorem run_encrypt (source : σ) (hsettings : Settings.ofVariables environment = .ok settings)
    (havailable : Available settings.secretPath w.files)
    {lock : Location} (hlock : w.files.canonical settings.secretPath = .ok lock)
    (hdash : text.toList.head? ≠ some '-') (hsize : text.utf8ByteSize ≤ Cipher.maxPlaintext) :
    ∃ key iv errors w', iv.length = Envelope.ivSize ∧
      Provided settings.secretPath w.files w'.files key ∧
      run ["encrypt", text] environment source w =
        (.ok ⟨0, false, "text = \"" ++ text ++ "\"\n" ++
          "encrypted text = \"" ++ encryptedUnder key iv text ++ "\"\n", errors⟩, w') := by
  obtain ⟨key, iv, errors, w', hiv, hprovided, hrun⟩ := runCommand_encrypts havailable
    hlock hsize fun key w' hopen => lead_execute_encrypt source hopen
  rw [String.empty_append] at hrun
  exact ⟨key, iv, errors, w', hiv, hprovided,
    (run_of_read hsettings (read_encrypt hdash) (by nofun)).trans hrun⟩

/-- A password is printed as a text is, under the line that announces it. -/
theorem run_password (source : σ) (hsettings : Settings.ofVariables environment = .ok settings)
    (havailable : Available settings.secretPath w.files)
    {lock : Location} (hlock : w.files.canonical settings.secretPath = .ok lock) {n : Nat}
    (hn : n ≤ Cipher.maxPlaintext) :
    ∃ password key iv errors w', password.length = n ∧
      (∀ c ∈ password.toList, c ∈ Password.standardAlphabet.toList) ∧
      iv.length = Envelope.ivSize ∧ Provided settings.secretPath w.files w'.files key ∧
      run ["pwgen", toString n] environment source w =
        (.ok ⟨0, false, "random password\n" ++ "text = \"" ++ password ++ "\"\n" ++
          "encrypted text = \"" ++ encryptedUnder key iv password ++ "\"\n", errors⟩, w') := by
  obtain ⟨password, hgenerate, hlength, halphabet⟩ := Password.generate_standard n source
  have hread : read ["pwgen", toString n] = .run (.password (some n)) := by
    rw [Cipher.maxPlaintext_eq] at hn
    exact read_numeral (by omega)
  have hsize : password.utf8ByteSize ≤ Cipher.maxPlaintext := by
    rwa [Password.utf8ByteSize_of_standard halphabet, hlength]
  obtain ⟨key, iv, errors, w', hiv, hprovided, hrun⟩ := runCommand_encrypts havailable
    hlock hsize fun key w' hopen => lead_execute_password hgenerate hopen
  exact ⟨password, key, iv, errors, w', hlength, halphabet, hiv, hprovided,
    (run_of_read hsettings hread (by nofun)).trans hrun⟩

/-! ## Where the round trip ends -/

theorem lead_showEncrypted_of_lt (hlong : Cipher.maxPlaintext < text.utf8ByteSize)
    (t : Terminal) :
    (lead (showEncrypted (handlerFor key) text) t).1 =
      .error (.failure (.encryption Cipher.tooLong)) := by
  have hencrypt : (lead ((handlerFor key).encryptText (.text text)) t.world.ambient).1 =
      .error (.failure (.encryption Cipher.tooLong)) :=
    Handler.perform_encryptText_of_lt rfl hlong t.world.ambient
  rw [showEncrypted, print, lead_bind, lead_modify]
  dsimp only
  rw [lead_bind, lead_perform, lead_inWorld]
  dsimp only
  rw [hencrypt]

/-- A text that the cipher does not accept makes the command fail. -/
theorem runCommand_of_lt {front : String}
    (hholds : Holds settings.secretPath w.files key) {lock : Location}
    (hlock : w.files.canonical settings.secretPath = .ok lock)
    (hlong : Cipher.maxPlaintext < text.utf8ByteSize)
    (hexecute : ∀ w', lead (openHandler settings) (blankTerminal w).world =
      (.ok (handlerFor key), w') → lead (execute settings source c) (blankTerminal w) =
        lead (showEncrypted (handlerFor key) text) ⟨w', front⟩) :
    ∃ e, (runCommand settings source c w).1 = .ok e ∧ e.status = 1 := by
  have hensure := ensure_of_holds (w := (blankTerminal w).world) hholds
  have hrun := hexecute _ (lead_openHandler hlock hensure)
  have herror := (congrArg Prod.fst hrun).trans (lead_showEncrypted_of_lt hlong _)
  have hled : lead (execute settings source c) (blankTerminal w) =
      (.error (.failure (.encryption Cipher.tooLong)),
        (lead (execute settings source c) (blankTerminal w)).2) := Prod.ext herror rfl
  exact ⟨_, runCommand_of_abort (by nofun) hled, rfl⟩

/-- No command gets past a key path that goes round in circles. -/
theorem runCommand_of_linkLoop (h : w.files.canonical settings.secretPath = .error .linkLoop) :
    (runCommand settings source c w).1 = .error (.misuse .linkLoop) := by
  have hmake : lead (KeyStore.make settings.secretPath true) (blankTerminal w).world =
      (.error (.misuse .linkLoop), (blankTerminal w).world) := by
    have hloop : (blankTerminal w).world.files.canonical settings.secretPath =
      .error .linkLoop := h
    rw [KeyStore.make, lead_bind, lead_get]
    dsimp only
    rw [hloop]
    rfl
  have hopen : lead (openHandler settings) (blankTerminal w).world =
      (.error (.misuse .linkLoop), (blankTerminal w).world) := by
    rw [openHandler, lead_bind, hmake]
  have hexecute : lead (execute settings source c) (blankTerminal w) =
      (.error (.misuse .linkLoop), blankTerminal w) := by
    rw [execute, lead_bind, lead_perform, hopen]
  exact runCommand_of_abort (by rintro f ⟨⟩) hexecute

theorem run_encrypt_of_lt (hsettings : Settings.ofVariables environment = .ok settings)
    (hholds : Holds settings.secretPath w.files key)
    {lock : Location} (hlock : w.files.canonical settings.secretPath = .ok lock)
    (hdash : text.toList.head? ≠ some '-') (hlong : Cipher.maxPlaintext < text.utf8ByteSize) :
    ∃ e, (run ["encrypt", text] environment source w).1 = .ok e ∧ e.status = 1 := by
  rw [run_of_read hsettings (read_encrypt hdash) (by nofun)]
  exact runCommand_of_lt hholds hlock hlong fun w' hopen => lead_execute_encrypt source hopen

theorem run_password_of_lt (hsettings : Settings.ofVariables environment = .ok settings)
    (hholds : Holds settings.secretPath w.files key)
    {lock : Location} (hlock : w.files.canonical settings.secretPath = .ok lock) {n : Nat}
    (hlong : Cipher.maxPlaintext < n) (hn : n ≤ 2 ^ 31) :
    ∃ e, (run ["pwgen", toString n] environment source w).1 = .ok e ∧ e.status = 1 := by
  obtain ⟨password, hgenerate, hlength, halphabet⟩ := Password.generate_standard n source
  have hread : read ["pwgen", toString n] = .run (.password (some n)) := read_numeral hn
  have hsize : Cipher.maxPlaintext < password.utf8ByteSize := by
    rwa [Password.utf8ByteSize_of_standard halphabet, hlength]
  rw [run_of_read hsettings hread (by nofun)]
  exact runCommand_of_lt hholds hlock hsize fun w' hopen =>
    lead_execute_password hgenerate hopen

/-! ## Some worlds -/

/-- Only the path of the key is configured. -/
def keyAt (path name : String) : Option String :=
  if name = SettingField.secretPath.variableName then some path else none

theorem ofVariables_keyAt {path : String} (hne : path ≠ "")
    (hpath : toString (Path.ofString path) ≠ ".") :
    Settings.ofVariables (keyAt path) =
      .ok { Settings.default with secretPath := .ofString path } := by
  have hread : Settings.readPath (.text path) = .ok (.ofString path) := by
    rw [Settings.readPath]
    exact if_neg hpath
  have hempty : path.isEmpty = false := by simpa using hne
  simp [Settings.ofVariables, Settings.ofFields, keyAt, SettingField.variableName, hempty,
    Settings.readField, hread]

/-- A source that always chooses what comes first. -/
def firstChoices : ScriptedChoices :=
  ⟨[], 0⟩

/-- A key that is easily written down. -/
def sevens : Key where
  bytes := List.replicate 32 7
  length_eq := by decide

/-- A key in the file `key`, and nothing else. -/
def keyFile : FileTree where
  entries := [(["key"], .file 0o400 sevens.bytes)]
  workingDirectory := []

/-- A world with these files, and zeros for entropy. -/
def worldOf (files : FileTree) : World where
  ambient := ⟨.ofBytes [], .ofBytes [], []⟩
  files := files

theorem keyFile_holds : Holds (.ofString "key") keyFile sevens :=
  ⟨by decide, rfl⟩

theorem canonical_keyFile : keyFile.canonical (.ofString "key") = .ok ["key"] :=
  rfl

/-- As many letters as this. -/
def letters (n : Nat) : String :=
  String.ofList (List.replicate n 'a')

theorem utf8ByteSize_letters (n : Nat) : (letters n).utf8ByteSize = n := by
  have hsize : ∀ c ∈ List.replicate n 'a', c.utf8Size = 1 := by
    intro c hc
    rw [List.eq_of_mem_replicate hc]
    decide
  rw [letters, String.utf8ByteSize_ofList, Password.utf8Len_of_ascii hsize, List.length_replicate]

theorem head?_letters (n : Nat) : (letters n).toList.head? ≠ some '-' := by
  intro h
  rw [letters, String.toList_ofList] at h
  exact absurd (List.eq_of_mem_replicate (List.mem_of_head? h)) (by decide)

/-- The working directory with a directory for the key. -/
def bareData : FileTree :=
  bare.files.put ["data", "home"] (.directory FileTree.directoryMode)

theorem creatable_bare : Creatable (.ofString "data/key") bare.files := by
  have hmake : bare.files.makeDirectory (toString (Path.ofString "data/key").parent) =
      .ok bareData := rfl
  have htext : toString (Path.ofString "data/key") = "data/key" := by decide
  have hvacant : bareData.locate .newFile "data/key" = .ok (.vacant ["key", "data", "home"]) := rfl
  refine ⟨by decide, bareData, ["key", "data", "home"], _, ?_, rfl,
    FileTree.createFile_eq_ok_iff.mpr ⟨htext ▸ hvacant, rfl⟩⟩
  rw [FileTree.ensureDirectory, hmake]

theorem canonical_bare :
    bare.files.canonical (.ofString "data/key") = .ok ["key", "data", "home"] := by
  apply FileTree.canonical_of_toOption
  decide +kernel

theorem ensureDirectory_roundabout (n : Nat) :
    (FileTree.roundabout n).ensureDirectory (Path.ofString "l/m/../n/k").parent =
      (.ok (), FileTree.roundaboutMade n) := by
  have htext : toString (Path.ofString "l/m/../n/k").parent = "l/m/../n" := by decide
  rw [FileTree.ensureDirectory, htext, FileTree.makeDirectory_roundabout]

theorem creatable_roundabout (n : Nat) :
    Creatable (.ofString "l/m/../n/k") (FileTree.roundabout n) := by
  have htext : toString (Path.ofString "l/m/../n/k") = "l/m/../n/k" := by decide
  have habsent : (FileTree.roundaboutMade n).pathExists "l/m/../n/k" = .ok false := by
    rw [FileTree.pathExists, FileTree.leadsTo, FileTree.status, FileTree.locate_roundaboutMade]
    rfl
  exact ⟨by decide, _, ["k", "n", "e"], _, ensureDirectory_roundabout n, htext ▸ habsent,
    FileTree.createFile_eq_ok_iff.mpr ⟨htext ▸ FileTree.locate_roundaboutMade _ n, rfl⟩⟩

/-- The key is there, and the way to it goes round in circles. -/
theorem canonical_of_provided_roundabout {n : Nat} (hn : FileTree.pathLimit ≤ 3 * n + 1)
    {t : FileTree} (h : Provided (.ofString "l/m/../n/k") (FileTree.roundabout n) t key) :
    t.canonical (.ofString "l/m/../n/k") = .error .linkLoop := by
  have hmade := h.extends_ _ (ensureDirectory_roundabout n)
  exact FileTree.canonical_roundabout_made ((FileTree.roundabout_extends n).trans hmade) hn
    (hmade.keeps _ _ (FileTree.lookup_roundaboutMade n))

/-! ## The round trip -/

end Strongbox.CommandLine
