import Strongbox.Proofs.Settings.Spelling

/-! # The fields of settings

Each field is judged as if it were the only one given. What is accepted is in normal form: printed
and read again, it is the same. -/

namespace Strongbox

theorem Level.name_ne_empty (l : Level) : l.name ≠ "" := by
  cases l <;> decide

theorem Level.map_upper_name (l : Level) :
    l.name.toList.map Settings.upper = l.name.toList := by
  cases l <;> decide

theorem SettingField.mem_all (field : SettingField) : field ∈ all := by
  cases field <;> decide

theorem SettingField.variableName_inj {field other : SettingField} :
    field.variableName = other.variableName ↔ field = other := by
  cases field <;> cases other <;> decide

namespace Settings

variable {environment : String → Option String} {settings : Settings} {s : String}

/-! ## Values of the fields -/

section

variable {p : Path} {n : Nat} {l : Level}

theorem readPath_text_eq_ok_iff :
    readPath (.text s) = .ok p ↔ .ofString s = p ∧ toString p ≠ "." := by
  simp only [readPath]
  split
  · rename_i hdot
    refine ⟨nofun, ?_⟩
    rintro ⟨rfl, hne⟩
    exact absurd hdot hne
  · rename_i hdot
    constructor
    · intro h
      obtain rfl := Except.ok.inj h
      exact ⟨rfl, hdot⟩
    · rintro ⟨rfl, -⟩
      rfl

theorem readLength_text_eq_ok_iff :
    readLength (.text s) = .ok n ↔ readNumeral s.toList = .ok (n : Int) := by
  have hread : readLength (.text s) = readNumeral s.toList >>= fun m =>
      if m < 0 then .error .negative else .ok m.toNat := rfl
  rw [hread]
  cases hnumeral : readNumeral s.toList with
  | error issue => exact ⟨nofun, nofun⟩
  | ok m =>
      change (if m < 0 then _ else _) = _ ↔ _
      split
      · refine ⟨nofun, fun h => ?_⟩
        have := Except.ok.inj h
        omega
      · rw [Except.ok.injEq, Except.ok.injEq]
        omega

theorem readLevel_text_eq_ok_iff :
    readLevel (.text s) = .ok l ↔ l.name = String.ofList (s.toList.map upper) := by
  change readLevelName s = .ok l ↔ _
  rw [readLevelName]
  constructor
  · intro h
    split at h
    · rename_i hname
      obtain rfl := Except.ok.inj h
      simpa using List.find?_some hname
    · cases h
  · intro h
    rw [← h, Level.ofName?_name]

theorem readPath_toString (h : toString p ≠ ".") : readPath (.text (toString p)) = .ok p :=
  readPath_text_eq_ok_iff.mpr ⟨Path.ofString_toString p, h⟩

theorem readLength_toString (h : n < 10 ^ Text.maxDigits) :
    readLength (.text (toString n)) = .ok n :=
  readLength_text_eq_ok_iff.mpr (readNumeral_toString h)

theorem readLevel_name (l : Level) : readLevel (.text l.name) = .ok l := by
  rw [readLevel_text_eq_ok_iff, l.map_upper_name, String.ofList_toList]

theorem lt_of_readLength (h : readLength (.text s) = .ok n) : n < 10 ^ Text.maxDigits := by
  simpa using natAbs_lt_of_readNumeral (readLength_text_eq_ok_iff.mp h)

end

/-! ## All fields together -/

section

variable {values : SettingField → Option Value}

theorem ofFields_eq_ok_iff :
    ofFields values = .ok settings ↔
      readField readPath default.secretPath (values .secretPath) = .ok settings.secretPath ∧
      readField readLength default.passwordLength (values .passwordLength) =
        .ok settings.passwordLength ∧
      readField readLevel default.logLevel (values .logLevel) = .ok settings.logLevel := by
  obtain ⟨path, length, level⟩ := settings
  simp only [ofFields]
  split
  · simp_all
  · rename_i hnot
    refine ⟨nofun, ?_⟩
    rintro ⟨hpath, hlength, hlevel⟩
    exact absurd hlevel (hnot path length level hpath hlength)

/-- The reports on one field that is given a value or not. -/
def reports (value : Option Value) : SettingField → List SettingError
  | .secretPath => report .secretPath (readField readPath default.secretPath value)
  | .passwordLength => report .passwordLength (readField readLength default.passwordLength value)
  | .logLevel => report .logLevel (readField readLevel default.logLevel value)

/-- What is reported instead of settings. -/
def reported : Except (List SettingError) Settings → List SettingError
  | .ok _ => []
  | .error errors => errors

theorem reported_ofFields (values : SettingField → Option Value) :
    reported (ofFields values) =
      SettingField.all.flatMap fun field => reports (values field) field := by
  simp only [ofFields]
  split
  · simp_all [reported, reports, report, SettingField.all]
  · simp [reported, reports, SettingField.all]

theorem report_eq_nil_iff {α : Type} {field : SettingField} {result : Except SettingIssue α} :
    report field result = [] ↔ ∃ a, result = .ok a := by
  cases result <;> simp [report]

/-- Settings are made where there is nothing to report. -/
theorem exists_ofFields_iff :
    (∃ settings, ofFields values = .ok settings) ↔ reported (ofFields values) = [] := by
  constructor
  · rintro ⟨settings, h⟩
    rw [h, reported]
  · intro h
    rw [reported_ofFields, List.flatMap_eq_nil_iff] at h
    obtain ⟨path, hpath⟩ := report_eq_nil_iff.mp (h .secretPath (by decide))
    obtain ⟨length, hlength⟩ := report_eq_nil_iff.mp (h .passwordLength (by decide))
    obtain ⟨level, hlevel⟩ := report_eq_nil_iff.mp (h .logLevel (by decide))
    exact ⟨⟨path, length, level⟩, ofFields_eq_ok_iff.mpr ⟨hpath, hlength, hlevel⟩⟩

theorem reports_none (field : SettingField) : reports none field = [] := by
  cases field <;> rfl

theorem report_eq {α : Type} (field : SettingField) (result : Except SettingIssue α) :
    report field result = [] ∨ ∃ issue, report field result = [⟨field, issue⟩] := by
  cases result with
  | ok => exact .inl rfl
  | error issue => exact .inr ⟨issue, rfl⟩

/-- There is at most one report on a field, and it names the field. -/
theorem reports_eq (value : Option Value) (field : SettingField) :
    reports value field = [] ∨ ∃ issue, reports value field = [⟨field, issue⟩] := by
  cases field <;> exact report_eq _ _

end

/-! ## The environment -/

/-- The text that a field is given. Empty variables count as unset. -/
def given (environment : String → Option String) (field : SettingField) : Option String :=
  (environment field.variableName).filter fun s => !s.isEmpty

theorem ofVariables_eq (environment : String → Option String) :
    ofVariables environment = ofFields fun field => (given environment field).map .text := by
  rw [ofVariables]
  congr
  funext field
  rw [given]
  cases environment field.variableName with
  | none => rfl
  | some s =>
      rw [Option.filter_some]
      cases hempty : s.isEmpty <;> simp [hempty]

/-- The environment with the variable of one field alone. -/
def alone (field : SettingField) (environment : String → Option String) : String → Option String :=
  fun name => if name = field.variableName then environment name else none

theorem given_alone (field other : SettingField) :
    given (alone field environment) other =
      if other = field then given environment field else none := by
  simp only [given, alone, SettingField.variableName_inj]
  split
  · rename_i h
    rw [h]
  · rfl

theorem reported_alone (field : SettingField) (environment : String → Option String) :
    reported (ofVariables (alone field environment)) =
      reports ((given environment field).map .text) field := by
  rw [ofVariables_eq, reported_ofFields]
  simp only [given_alone]
  cases field <;> simp [SettingField.all, reports_none]

/-- The fields do not hide the reports on each other. -/
theorem reported_ofVariables (environment : String → Option String) :
    reported (ofVariables environment) =
      SettingField.all.flatMap fun field => reported (ofVariables (alone field environment)) := by
  simp only [reported_alone]
  rw [ofVariables_eq, reported_ofFields]

theorem exists_ofVariables_iff :
    (∃ settings, ofVariables environment = .ok settings) ↔
      reported (ofVariables environment) = [] := by
  rw [ofVariables_eq]
  exact exists_ofFields_iff

/-- A field that is taken alone has the one report on it, or none. -/
theorem ofVariables_alone_eq_error {field : SettingField} {errors : List SettingError}
    (h : ofVariables (alone field environment) = .error errors) :
    ∃ issue, errors = [⟨field, issue⟩] := by
  have herrors : errors = reports ((given environment field).map .text) field := by
    rw [← reported_alone, h, reported]
  rcases reports_eq ((given environment field).map .text) field with hnone | ⟨issue, hissue⟩
  · rw [← reported_alone] at hnone
    obtain ⟨settings, hok⟩ := exists_ofVariables_iff.mpr hnone
    rw [h] at hok
    cases hok
  · exact ⟨issue, herrors.trans hissue⟩

/-! ## Printed settings -/

/-- Settings in normal form, each field as it is given. -/
structure Normal (environment : String → Option String) (settings : Settings) : Prop where
  path : settings.secretPath =
    (given environment .secretPath).elim default.secretPath Path.ofString
  printed : toString settings.secretPath ≠ "." ∧
    toString settings.secretPath =
      settings.secretPath.root.text ++ "/".intercalate settings.secretPath.names
  components : ∀ n ∈ settings.secretPath.names, n ≠ "" ∧ n ≠ "." ∧ '/' ∉ n.toList
  length : (given environment .passwordLength).elim
    (settings.passwordLength = default.passwordLength)
    fun s => readNumeral s.toList = .ok (settings.passwordLength : Int)
  level : settings.logLevel.name = (given environment .logLevel).elim default.logLevel.name
    fun s => String.ofList (s.toList.map upper)
  known : settings.logLevel.name ∈ ["CRITICAL", "ERROR", "WARNING", "INFO", "DEBUG", "NOTSET"]

/-- The text that a field is printed as. -/
def spelling (settings : Settings) : SettingField → String
  | .secretPath => toString settings.secretPath
  | .passwordLength => toString settings.passwordLength
  | .logLevel => settings.logLevel.name

/-- An environment with the variables of all fields set. -/
def assigned (value : SettingField → String) (others : String → Option String) :
    String → Option String :=
  fun name =>
    match SettingField.all.find? fun field => field.variableName = name with
    | some field => some (value field)
    | none => others name

theorem spelling_ne_empty (settings : Settings) (field : SettingField) :
    settings.spelling field ≠ "" := by
  cases field with
  | secretPath => exact Path.toString_ne_empty _
  | passwordLength => exact Nat.repr_ne_empty
  | logLevel => exact Level.name_ne_empty _

theorem given_assigned {value : SettingField → String} {field : SettingField}
    (h : value field ≠ "") (others : String → Option String) :
    given (assigned value others) field = some (value field) := by
  have hfind : SettingField.all.find? (fun other => other.variableName = field.variableName) =
      some field := by
    cases field <;> decide
  rw [given, assigned, hfind, Option.filter_some, if_pos]
  simpa using h

section

variable {text : Option String} {p : Path} {n : Nat} {l : Level}

theorem eq_of_readField_path
    (h : readField readPath default.secretPath (text.map .text) = .ok p) :
    p = text.elim default.secretPath Path.ofString ∧ toString p ≠ "." := by
  cases text with
  | none =>
      obtain rfl := Except.ok.inj h
      exact ⟨rfl, by decide⟩
  | some s =>
      obtain ⟨hp, hdot⟩ := readPath_text_eq_ok_iff.mp h
      exact ⟨hp.symm, hdot⟩

theorem eq_of_readField_length
    (h : readField readLength default.passwordLength (text.map .text) = .ok n) :
    text.elim (n = default.passwordLength) (fun s => readNumeral s.toList = .ok (n : Int)) ∧
      n < 10 ^ Text.maxDigits := by
  cases text with
  | none =>
      obtain rfl := Except.ok.inj h
      refine ⟨rfl, ?_⟩
      calc
        16 < 10 ^ 2 := by decide
        _ ≤ 10 ^ Text.maxDigits := Nat.pow_le_pow_right (by decide) (by decide)
  | some s => exact ⟨readLength_text_eq_ok_iff.mp h, lt_of_readLength h⟩

theorem eq_of_readField_level
    (h : readField readLevel default.logLevel (text.map .text) = .ok l) :
    l.name =
      text.elim default.logLevel.name fun s => String.ofList (s.toList.map upper) := by
  cases text with
  | none =>
      obtain rfl := Except.ok.inj h
      rfl
  | some s => exact readLevel_text_eq_ok_iff.mp h

end

theorem normal_of_ofVariables (h : ofVariables environment = .ok settings) :
    Normal environment settings := by
  rw [ofVariables_eq, ofFields_eq_ok_iff] at h
  obtain ⟨hpath, hlength, hlevel⟩ := h
  obtain ⟨hpath, hdot⟩ := eq_of_readField_path hpath
  refine ⟨hpath, ⟨hdot, ?_⟩, settings.secretPath.normal, (eq_of_readField_length hlength).1,
    eq_of_readField_level hlevel, ?_⟩
  · simp only [toString] at hdot ⊢
    split at hdot
    · exact absurd rfl hdot
    · rename_i hempty
      exact if_neg hempty
  · cases settings.logLevel <;> decide

/-- Settings that are printed are read back, whatever else the environment holds. -/
theorem ofVariables_spelling (h : ofVariables environment = .ok settings)
    (others : String → Option String) :
    ofVariables (assigned settings.spelling others) = .ok settings := by
  have hlimit := h
  rw [ofVariables_eq, ofFields_eq_ok_iff] at hlimit
  obtain ⟨hpath, hlength, -⟩ := hlimit
  rw [ofVariables_eq, ofFields_eq_ok_iff]
  simp only [given_assigned (spelling_ne_empty settings _), Option.map_some, readField, spelling]
  exact ⟨readPath_toString (eq_of_readField_path hpath).2,
    readLength_toString (eq_of_readField_length hlength).2, readLevel_name settings.logLevel⟩

/-- An environment gives settings if each of its variables does alone, and else the reports on all
the others in the order of the fields. What it gives is in normal form, and it is given again by
any environment that the settings are written to. -/
theorem ofVariables_normal (environment : String → Option String) :
    ((∃ settings, ofVariables environment = .ok settings) ↔
      ∀ field, ∃ settings, ofVariables (alone field environment) = .ok settings) ∧
    (∀ errors, ofVariables environment = .error errors →
      errors = SettingField.all.flatMap fun field =>
        reported (ofVariables (alone field environment))) ∧
    (∀ field errors, ofVariables (alone field environment) = .error errors →
      ∃ issue, errors = [⟨field, issue⟩]) ∧
    ∀ settings, ofVariables environment = .ok settings →
      Normal environment settings ∧
        ∀ others, ofVariables (assigned settings.spelling others) = .ok settings := by
  refine ⟨?_, ?_, fun _ _ => ofVariables_alone_eq_error, fun settings h =>
    ⟨normal_of_ofVariables h, ofVariables_spelling h⟩⟩
  · simp only [exists_ofVariables_iff]
    rw [reported_ofVariables, List.flatMap_eq_nil_iff]
    exact ⟨fun h field => h field field.mem_all, fun h field _ => h field⟩
  · intro errors h
    rw [← reported_ofVariables, h, reported]

/-- Values that are accepted, none of them as it is printed. -/
def untidy : SettingField → String
  | .secretPath => "//a/./b//../c/"
  | .passwordLength => " +0_7.00"
  | .logLevel => "warnıng"

/-- Values that are refused, each for a reason of its own. -/
def unfit : SettingField → String
  | .secretPath => "./."
  | .passwordLength => "-1"
  | .logLevel => "loud"

theorem ofVariables_normal_untidy :
    (ofVariables (assigned untidy fun _ => none) = .ok ⟨.ofString "//a/b/../c", 7, .warning⟩ ∧
      Normal (assigned untidy fun _ => none) ⟨.ofString "//a/b/../c", 7, .warning⟩ ∧
      ofVariables (assigned (spelling ⟨.ofString "//a/b/../c", 7, .warning⟩)
        (assigned unfit fun _ => none)) = .ok ⟨.ofString "//a/b/../c", 7, .warning⟩) ∧
    (ofVariables (assigned unfit fun _ => none) =
        .error [⟨.secretPath, .emptyPath⟩, ⟨.passwordLength, .negative⟩,
          ⟨.logLevel, .unknownLevel "loud"⟩] ∧
      [⟨.secretPath, .emptyPath⟩, ⟨.passwordLength, .negative⟩,
          ⟨.logLevel, .unknownLevel "loud"⟩] =
        SettingField.all.flatMap fun field =>
          reported (ofVariables (alone field (assigned unfit fun _ => none)))) ∧
    ofVariables (alone .passwordLength (assigned unfit fun _ => none)) =
        .error [⟨.passwordLength, .negative⟩] ∧
      ∃ issue, [⟨.passwordLength, .negative⟩] = [(⟨.passwordLength, issue⟩ : SettingError)] := by
  have huntidy : ofVariables (assigned untidy fun _ => none) =
      .ok ⟨.ofString "//a/b/../c", 7, .warning⟩ := by decide
  have hunfit : ofVariables (assigned unfit fun _ => none) =
      .error [⟨.secretPath, .emptyPath⟩, ⟨.passwordLength, .negative⟩,
        ⟨.logLevel, .unknownLevel "loud"⟩] := by decide
  have halone : ofVariables (alone .passwordLength (assigned unfit fun _ => none)) =
      .error [⟨.passwordLength, .negative⟩] := by decide
  obtain ⟨-, -, -, hsettings⟩ := ofVariables_normal (assigned untidy fun _ => none)
  obtain ⟨-, herrors, hreport, -⟩ := ofVariables_normal (assigned unfit fun _ => none)
  obtain ⟨hnormal, hagain⟩ := hsettings _ huntidy
  exact ⟨⟨huntidy, hnormal, hagain _⟩, ⟨hunfit, herrors _ hunfit⟩, halone, hreport _ _ halone⟩

end Settings

end Strongbox
