import Strongbox.CommandLine.Usage
import Strongbox.Text.Integer

/-!
Reading an argument vector. Words that open with a dash are options, unless they are a lone dash,
look like a negative number, contain a space or follow two dashes; the one option there is asks
for help and may be abbreviated.
-/

namespace Strongbox.CommandLine

inductive Command
  | version
  | encrypt (text : String)
  | decrypt (text : String)
  | password (length : Option Int)
deriving DecidableEq

/-- What an argument vector asks for. -/
inductive Request
  | run (c : Command)
  | nothing
  | help (t : Topic)
  | refused (t : Topic) (e : UsageError)

/-- An argument by its form. -/
inductive Word
  | operand (s : String)
  /-- The help option, perhaps with an argument that it does not take. -/
  | help (argument : Option String)
  | unknown (s : String)
  /-- Two dashes. -/
  | dashes

namespace Word

/-- The argument that a single-dash help option is given by what follows it. More of the same
letter only ask for help again; everything from another letter on is an argument. -/
def bundled : List Char → Option String
  | [] => none
  | 'h' :: rest => bundled rest
  | cs => some (String.ofList cs)

/-- The argument of the single-dash help option after an equals sign. -/
def valued : List Char → Option String
  | [] => some ""
  | cs => bundled cs

/-- The part before the first equals sign, and what follows the sign. -/
def splitValue (cs : List Char) : List Char × Option (List Char) :=
  let name := cs.takeWhile (· != '=')
  (name, if name.length < cs.length then some (cs.drop (name.length + 1)) else none)

/-- The help option in one of its forms; the long form may be cut short. -/
def help? (cs : List Char) : Option Word :=
  match splitValue cs with
  | (['-', 'h'], some value) => some (help (valued value))
  | (name, value) =>
    match cs with
    | '-' :: '-' :: _ =>
      if name.isPrefixOf "--help".toList then some (help (value.map String.ofList)) else none
    | ['-', 'h'] => some (help none)
    | '-' :: 'h' :: rest => some (help (bundled rest))
    | _ => none

def isDigit (c : Char) : Bool :=
  (Text.digit? c).isSome

/-- A dash and digits, or a dash and a decimal fraction; one line break may follow. -/
def isNegativeNumber : List Char → Bool
  | '-' :: rest =>
    let whole := rest.takeWhile isDigit
    match rest.dropWhile isDigit with
    | '.' :: rest =>
      let fraction := rest.takeWhile isDigit
      let after := rest.dropWhile isDigit
      !fraction.isEmpty && (after.isEmpty || after = ['\n'])
    | after => !whole.isEmpty && (after.isEmpty || after = ['\n'])
  | _ => false

def ofString (s : String) : Word :=
  let cs := s.toList
  if cs.head? != some '-' || cs.length = 1 then operand s
  else match help? cs with
    | some w => w
    | none => if isNegativeNumber cs || cs.contains ' ' then operand s else unknown s

/-- After two dashes every argument is an operand. -/
def ofArguments : List String → List Word
  | [] => []
  | s :: rest =>
    if s = "--" then dashes :: rest.map operand else ofString s :: ofArguments rest

end Word

/-- The operand of a command while its arguments are read. -/
inductive Slot
  | closed
  | required (name : String)
  | optional
  | filled (c : Command)

namespace Slot

def ofTopic (t : Topic) : Slot :=
  match t.operand? with
  | none => closed
  | some o => if o.optional then optional else required o.name

def isOpen : Slot → Bool
  | required _ | optional => true
  | _ => false

end Slot

/-- The command with its operand. -/
def Topic.fill (t : Topic) (s : String) : Except UsageError Command :=
  match t with
  | .encrypt => .ok (.encrypt s)
  | .decrypt => .ok (.decrypt s)
  | .password =>
    match Text.integer? s with
    | some n => .ok (.password (some n))
    | none => .error (.notALength s)
  | .version | .program => .ok .version

/-- Two dashes directly after an operand that was taken go with it. -/
def dropDashes : List Word → List Word
  | .dashes :: rest => rest
  | words => words

theorem length_dropDashes_le (words : List Word) : (dropDashes words).length ≤ words.length := by
  fun_cases dropDashes words <;> simp

/-- The end of the arguments: a missing operand counts before arguments left over. -/
def conclude (t : Topic) (slot : Slot) (extras : List String) : Request :=
  match slot with
  | .required name => .refused t (.missing name)
  | .closed => if extras.isEmpty then .run .version else .refused .program (.unrecognized extras)
  | .optional =>
    if extras.isEmpty then .run (.password none) else .refused .program (.unrecognized extras)
  | .filled c => if extras.isEmpty then .run c else .refused .program (.unrecognized extras)

/-- Reads the arguments of a command; those that fit nowhere are collected. -/
def readOperands (t : Topic) (slot : Slot) (extras : List String) : List Word → Request
  | [] => conclude t slot extras
  | .operand s :: rest =>
    if slot.isOpen then
      match t.fill s with
      | .ok c =>
        have := length_dropDashes_le rest
        readOperands t (.filled c) extras (dropDashes rest)
      | .error e => .refused t e
    else readOperands t slot (extras ++ [s]) rest
  | .dashes :: rest =>
    if slot.isOpen && !rest.isEmpty then readOperands t slot extras rest
    else
      match slot with
      | .optional => conclude t .optional extras
      | _ => readOperands t slot (extras ++ ["--"]) rest
  | .help none :: _ => .help t
  | .help (some argument) :: _ => .refused t (.helpArgument argument)
  | .unknown s :: rest => readOperands t slot (extras ++ [s]) rest
termination_by words => words.length

/-- The first operand names the command, and all that follows belongs to it. -/
def readCommand (name : String) (arguments extras : List String) : Request :=
  match Topic.ofCommand? name with
  | none => .refused .program (.unknownCommand name)
  | some t => readOperands t (.ofTopic t) extras (Word.ofArguments arguments)

/-- Reads what comes before the command. -/
def readFrom (extras : List String) : List String → Request
  | [] => if extras.isEmpty then .nothing else .refused .program (.unrecognized extras)
  | s :: rest =>
    if s = "--" then
      if rest.isEmpty then .refused .program (.unrecognized (extras ++ [s]))
      else readCommand s rest extras
    else match Word.ofString s with
      | .operand name => readCommand name rest extras
      | .help none => .help .program
      | .help (some argument) => .refused .program (.helpArgument argument)
      | .unknown _ | .dashes => readFrom (extras ++ [s]) rest

def read (arguments : List String) : Request :=
  readFrom [] arguments

end Strongbox.CommandLine
