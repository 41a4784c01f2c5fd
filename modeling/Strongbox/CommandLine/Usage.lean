import Strongbox.Text.Quoted

/-!
The texts of the command line: usage lines, help pages and usage errors.
-/

namespace Strongbox.CommandLine

/-- What a usage line or a help page is about. -/
inductive Topic
  | program
  | version
  | encrypt
  | decrypt
  | password
deriving DecidableEq

/-- The commands as they are typed; the last two are one. -/
def commandNames : List String :=
  ["version", "encrypt", "decrypt", "pwgen", "password-generator"]

/-- An operand of a command, and whether it may be left out. -/
structure Operand where
  name : String
  description : String
  optional : Bool

namespace Topic

def ofCommand? : String → Option Topic
  | "version" => some version
  | "encrypt" => some encrypt
  | "decrypt" => some decrypt
  | "pwgen" => some password
  | "password-generator" => some password
  | _ => none

def title : Topic → String
  | program => "navigator-crypto"
  | version => "navigator-crypto version"
  | encrypt => "navigator-crypto encrypt"
  | decrypt => "navigator-crypto decrypt"
  | password => "navigator-crypto pwgen"

def operand? : Topic → Option Operand
  | program | version => none
  | encrypt => some ⟨"text", "clear text", false⟩
  | decrypt => some ⟨"encrypted", "encrypted text", false⟩
  | password => some ⟨"length", "number of chars", true⟩

end Topic

def unlines (lines : List String) : String :=
  lines.foldl (fun text line => text ++ line ++ "\n") ""

def padTo (width : Nat) (s : String) : String :=
  s ++ String.ofList (List.replicate (width - s.length) ' ')

def commandSet : String :=
  "\x7b" ++ ",".intercalate commandNames ++ "\x7d"

namespace Topic

def usage (t : Topic) : List String :=
  match t, t.operand? with
  | program, _ =>
    ["usage: navigator-crypto [-h]", padTo 24 "" ++ commandSet ++ " ..."]
  | _, none => [s!"usage: {t.title} [-h]"]
  | _, some o =>
    let operand := if o.optional then "[" ++ o.name ++ "]" else o.name
    [s!"usage: {t.title} [-h] {operand}"]

def helpNote : String := "show this help message and exit"

/-- The lines between usage and options. -/
def body (t : Topic) : List String :=
  match t, t.operand? with
  | program, _ =>
    ["Encrypt and decrypt \x7bAES256\x7d values with the application secret key.", "",
      "positional arguments:", "  " ++ commandSet,
      padTo 24 "    version" ++ "Show application version",
      padTo 24 "    encrypt" ++ "encrypt clear text for passwords",
      padTo 24 "    decrypt" ++ "decrypt encrypted text",
      "    pwgen (password-generator)",
      padTo 24 "" ++ "create random passwords", ""]
  | _, none => []
  | _, some o => ["positional arguments:", padTo 14 ("  " ++ o.name) ++ o.description, ""]

def help (t : Topic) : String :=
  let column := if t = program then 24 else 14
  unlines (t.usage ++ [""] ++ t.body ++ ["options:", padTo column "  -h, --help" ++ helpNote])

end Topic

inductive UsageError
  | unknownCommand (name : String)
  | unrecognized (arguments : List String)
  | missing (operand : String)
  | notALength (text : String)
  /-- The help option was given an argument. -/
  | helpArgument (text : String)

namespace UsageError

def message : UsageError → String
  | unknownCommand name =>
    let choices := ", ".intercalate (commandNames.map Quoted.text)
    s!"argument command: invalid choice: {Quoted.text name} (choose from {choices})"
  | unrecognized arguments => "unrecognized arguments: " ++ " ".intercalate arguments
  | missing operand => s!"the following arguments are required: {operand}"
  | notALength text => s!"argument length: invalid int value: {Quoted.text text}"
  | helpArgument text => s!"argument -h/--help: ignored explicit argument {Quoted.text text}"

def report (t : Topic) (e : UsageError) : String :=
  unlines (t.usage ++ [s!"{t.title}: error: {e.message}"])

end UsageError

end Strongbox.CommandLine
