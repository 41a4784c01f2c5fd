import Strongbox.Files.Path
import Strongbox.Task
import Strongbox.Text.Integer
import Strongbox.Text.Quoted
import Strongbox.Text.Utf8

/-!
Settings of the application, read from environment variables or given as values. Each field is
judged on its own, and all faults are reported together.
-/

namespace Strongbox

structure Settings where
  secretPath : Path
  passwordLength : Nat
  logLevel : Level
deriving DecidableEq

namespace Settings

def default : Settings where
  secretPath := .ofString "data/secret.bin"
  passwordLength := 16
  logLevel := .warning

end Settings

inductive SettingField
  | secretPath
  | passwordLength
  | logLevel
deriving DecidableEq

namespace SettingField

def all : List SettingField := [secretPath, passwordLength, logLevel]

def name : SettingField → String
  | secretPath => "secret_path"
  | passwordLength => "password_length"
  | logLevel => "log_level"

def variableName : SettingField → String
  | secretPath => "CRYPTO_SECRET_PATH"
  | passwordLength => "CRYPTO_PASSWORD_LENGTH"
  | logLevel => "CRYPTO_LOG_LEVEL"

end SettingField

/-- Why a value cannot be the setting of a field. -/
inductive SettingIssue
  | notAPath
  | emptyPath
  | unreadableNumber
  | numberTooLong
  | notFinite
  | fractional
  | notANumber
  | negative
  | notText
  | notUnicode
  | unknownLevel (text : String)
deriving DecidableEq

namespace SettingIssue

/-- The short name of the issue, in reports and in links to their explanation. -/
def label : SettingIssue → String
  | notAPath => "path_type"
  | emptyPath | unknownLevel _ => "value_error"
  | unreadableNumber => "int_parsing"
  | numberTooLong => "int_parsing_size"
  | notFinite => "finite_number"
  | fractional => "int_from_float"
  | notANumber => "int_type"
  | negative => "greater_than_equal"
  | notText => "string_type"
  | notUnicode => "string_unicode"

def message : SettingIssue → String
  | notAPath => "Input is not a valid path for <class 'pathlib.Path'>"
  | emptyPath => "Value error, secret_path cannot be empty"
  | unreadableNumber => "Input should be a valid integer, unable to parse string as an integer"
  | numberTooLong => "Unable to parse input string as an integer, exceeded maximum size"
  | notFinite => "Input should be a finite number"
  | fractional => "Input should be a valid integer, got a number with a fractional part"
  | notANumber => "Input should be a valid integer"
  | negative => "Input should be greater than or equal to 0"
  | notText => "Input should be a valid string"
  | notUnicode =>
    "Input should be a valid string, unable to parse raw data as a unicode string"
  | unknownLevel text => s!"Value error, Unsupported log level: {text}"

end SettingIssue

structure SettingError where
  field : SettingField
  issue : SettingIssue
deriving DecidableEq

namespace Settings

def readPath : Value → Except SettingIssue Path
  | .text s =>
    let p := Path.ofString s
    if toString p = "." then .error .emptyPath else .ok p
  | _ => .error .notAPath

def asciiDigit? (c : Char) : Option Nat :=
  if c.isDigit then some (c.toNat - '0'.toNat) else none

/-- A whole number as it stands: a minus sign at most, and digits without zeros in front. -/
def plainDigits (cs : List Char) : List Char :=
  let unsigned := if cs.head? = some '-' then cs.tail else cs
  if unsigned.head? = some '0' then [] else unsigned.takeWhile Char.isDigit

/-- What follows the zeros in front of a numeral, and the underscores among them. The last of them
stays if there is no digit after it. A minus sign may still come. -/
def afterZeros (last : Char) : List Char → Option (List Char)
  | [] => some [last]
  | '.' :: rest => some (last :: '.' :: rest)
  | c :: rest =>
    if c = '0' ∨ c = '_' then afterZeros c rest
    else if c = '-' ∨ c.isDigit then some (c :: rest)
    else none

/-- An unsigned numeral without zeros in front. -/
def dropZeros : List Char → Option (List Char)
  | '0' :: rest => afterZeros '0' rest
  | c :: rest => if c.isDigit then some (c :: rest) else none
  | [] => none

/-- The part before a point that only zeros follow. -/
def dropZeroFraction (cs : List Char) : List Char :=
  let whole := cs.takeWhile (· != '.')
  let fraction := cs.drop (whole.length + 1)
  if !fraction.isEmpty && fraction.all (· == '0') then whole else cs

/-- Whether a minus sign is left after the zeros, and the digits; one underscore may follow it. -/
def splitMinus : List Char → Bool × List Char
  | '-' :: '_' :: rest => (true, rest)
  | '-' :: rest => (true, rest)
  | cs => (false, cs)

/-- Digits that single underscores may group, few enough and without a zero in front. -/
def readDigits (cs : List Char) : Option Nat := do
  let ds ← Text.groupedDigits? asciiDigit? cs
  if ds.head? = some 0 ∧ ds ≠ [0] ∨ Text.maxDigits < ds.length then none
  else return Text.numberOf ds

/-- A numeral that is not plain: with blanks around it, a sign, zeros in front, underscores or a
fraction of zeros. Only one minus sign counts. -/
def tidyNumeral? (cs : List Char) : Option Int := do
  let (negative, unsigned) := Text.splitSign (Text.trim cs)
  let whole := dropZeroFraction (← dropZeros unsigned)
  let (again, digits) := splitMinus whole
  if negative && again then none
  else return Text.signed (negative || again) (← readDigits digits)

/-- A numeral is too long only if it opens with too many digits as it stands; one that grows too
long in another way cannot be read. -/
def readNumeral (cs : List Char) : Except SettingIssue Int :=
  if Text.maxDigits < (plainDigits cs).length then .error .numberTooLong
  else match tidyNumeral? cs with
    | some n => .ok n
    | none => .error .unreadableNumber

def readFloat (x : Binary64) : Except SettingIssue Int :=
  if !x.isFinite then .error .notFinite
  else match x.toInt? with
    | none => .error .fractional
    | some n => if -(twoTo 63 : Int) < n ∧ n < twoTo 63 then .ok n else .error .numberTooLong

def readInteger : Value → Except SettingIssue Int
  | .int n => .ok n
  | .bool b => .ok (if b then 1 else 0)
  | .float x _ => readFloat x
  | .text s => readNumeral s.toList
  | .brokenText _ => .error .notUnicode
  | .bytes .fixed bs =>
    match Utf8.decode bs with
    | some s => readNumeral s.toList
    | none => .error .unreadableNumber
  | _ => .error .notANumber

def readLength (v : Value) : Except SettingIssue Nat := do
  let n ← readInteger v
  if n < 0 then throw .negative else return n.toNat

/-- The letter in upper case. The names of levels are plain ASCII, so of the other letters only
two matter: the dotless i and the long s. -/
def upper (c : Char) : Char :=
  if c = 'ı' then 'I' else if c = 'ſ' then 'S' else c.toUpper

def readLevelName (s : String) : Except SettingIssue Level :=
  match Level.ofName? (String.ofList (s.toList.map upper)) with
  | some l => .ok l
  | none => .error (.unknownLevel s)

def readLevel : Value → Except SettingIssue Level
  | .text s => readLevelName s
  | .brokenText t => .error (.unknownLevel (Quoted.displayed t))
  | .bytes .view _ => .error .notText
  | .bytes _ bs =>
    match Utf8.decode bs with
    | some s => readLevelName s
    | none => .error .notUnicode
  | _ => .error .notText

/-- A field that is not given takes its default. -/
def readField {α : Type} (read : Value → Except SettingIssue α) (default : α) :
    Option Value → Except SettingIssue α
  | none => .ok default
  | some v => read v

/-- The report on a field, if there is an issue with it. -/
def report {α : Type} (field : SettingField) : Except SettingIssue α → List SettingError
  | .ok _ => []
  | .error issue => [⟨field, issue⟩]

/-- The settings, or the issues of all fields. -/
def ofFields (given : SettingField → Option Value) : Except (List SettingError) Settings :=
  let path := readField readPath default.secretPath (given .secretPath)
  let length := readField readLength default.passwordLength (given .passwordLength)
  let level := readField readLevel default.logLevel (given .logLevel)
  match path, length, level with
  | .ok secretPath, .ok passwordLength, .ok logLevel =>
    .ok { secretPath, passwordLength, logLevel }
  | _, _, _ =>
    .error (report .secretPath path ++ report .passwordLength length ++ report .logLevel level)

/-- Empty variables count as unset. -/
def ofVariables (environment : String → Option String) : Except (List SettingError) Settings :=
  ofFields fun field =>
    match environment field.variableName with
    | some s => if s.isEmpty then none else some (.text s)
    | none => none

/-- Reads the environment and notes where the key is kept. -/
def load (environment : String → Option String) :
    StateM Ambient (Except (List SettingError) Settings) := do
  match ofVariables environment with
  | .error errors => return .error errors
  | .ok settings =>
    modify fun a => a.record .debug s!"Crypto config loaded: secret_path={settings.secretPath}"
    return .ok settings

end Settings

end Strongbox
