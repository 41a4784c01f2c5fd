import Strongbox.Number.Binary64
import Strongbox.Value

/-!
The tokens of a JSON text. `Token.scan?` reads a text from left to right, one character at a time;
what it is in the middle of is a `Mode`.
-/

namespace Strongbox.Json

inductive Token
  | openObject
  | closeObject
  | openArray
  | closeArray
  | colon
  | comma
  | text (s : String)
  | scalar (v : Value)

namespace Number

/-- The digits at the front and what follows them. -/
def digits (cs : List Char) : List Char × List Char :=
  (cs.takeWhile Char.isDigit, cs.dropWhile Char.isDigit)

def valueOf (ds : List Char) : Nat :=
  ds.foldl (fun n d => 10 * n + (d.toNat - '0'.toNat)) 0

/-- No zero stands before other digits. -/
def isWhole (ds : List Char) : Bool :=
  !ds.isEmpty && (ds.length = 1 || ds.head? != some '0')

/-- The exponent of a number, if what follows its digits is one or nothing. -/
def exponent? : List Char → Option (Option Int)
  | [] => some none
  | c :: rest =>
    if c = 'e' ∨ c = 'E' then
      let negative := rest.head? = some '-'
      let unsigned := if rest.head? = some '-' ∨ rest.head? = some '+' then rest.drop 1 else rest
      let (ds, after) := digits unsigned
      if ds.isEmpty || !after.isEmpty then none
      else some (some (if negative then -(valueOf ds : Int) else valueOf ds))
    else none

/-- The range of numbers that are kept as integers. -/
def isExact (n : Int) : Bool :=
  -(twoTo 63 : Int) ≤ n && n < twoTo 64

/-- A rounded number; overflow is refused. -/
def rounded (negative : Bool) (ds : List Char) (exponent : Int) : Option Value :=
  let x := Binary64.ofDecimal negative (valueOf ds) exponent
  if x.isFinite then some (.float x) else none

/-- A whole number in range is an integer, and any other number is rounded. -/
def value? (cs : List Char) : Option Value :=
  let negative := cs.head? = some '-'
  let (whole, rest) := digits (if negative then cs.drop 1 else cs)
  if !isWhole whole then none
  else
    match rest with
    | '.' :: rest =>
      let (fraction, rest) := digits rest
      if fraction.isEmpty then none
      else do
        let e ← exponent? rest
        rounded negative (whole ++ fraction) (e.getD 0 - fraction.length)
    | rest => do
      match ← exponent? rest with
      | some e => rounded negative whole e
      | none =>
        let n : Int := if negative then -(valueOf whole : Int) else valueOf whole
        if isExact n then some (.int n) else rounded negative whole 0

end Number

/-- What the reader is in the middle of; collected characters are held in reverse. -/
inductive Mode
  | between
  | word (letters : List Char)
  | number (chars : List Char)
  | string (chars : List Char)
  /-- After a backslash. -/
  | escape (chars : List Char)
  /-- Some of the four digits of a numeric escape, with the leading surrogate it completes. -/
  | unit (chars : List Char) (lead : Option Nat) (count value : Nat)
  /-- After a leading surrogate, and then after the backslash that must follow it. -/
  | lead (chars : List Char) (unit : Nat)
  | leadEscape (chars : List Char) (unit : Nat)

namespace Token

def word? : String → Option Value
  | "true" => some (.bool true)
  | "false" => some (.bool false)
  | "null" => some .null
  | _ => none

def punctuation? : Char → Option Token
  | '\x7b' => some openObject
  | '\x7d' => some closeObject
  | '[' => some openArray
  | ']' => some closeArray
  | ':' => some colon
  | ',' => some comma
  | _ => none

def isSpace (c : Char) : Bool :=
  c = ' ' || c = '\t' || c = '\n' || c = '\r'

def isNumeric (c : Char) : Bool :=
  c.isDigit || c = '-' || c = '+' || c = '.' || c = 'e' || c = 'E'

def escaped? : Char → Option Char
  | '"' => some '"'
  | '\\' => some '\\'
  | '/' => some '/'
  | 'b' => some '\x08'
  | 'f' => some '\x0c'
  | 'n' => some '\n'
  | 'r' => some '\r'
  | 't' => some '\t'
  | _ => none

def hexDigit? (c : Char) : Option Nat :=
  if '0' ≤ c ∧ c ≤ '9' then some (c.toNat - '0'.toNat)
  else if 'a' ≤ c ∧ c ≤ 'f' then some (c.toNat - 'a'.toNat + 10)
  else if 'A' ≤ c ∧ c ≤ 'F' then some (c.toNat - 'A'.toNat + 10)
  else none

def isLead (n : Nat) : Bool := 0xd800 ≤ n && n < 0xdc00

def isTrail (n : Nat) : Bool := 0xdc00 ≤ n && n < 0xe000

/-- A character met between tokens: the tokens it completes and what it begins. -/
def between? (c : Char) : Option (List Token × Mode) :=
  if isSpace c then some ([], .between)
  else if c = '"' then some ([], .string [])
  else if c.isDigit ∨ c = '-' then some ([], .number [c])
  else if c.isAlpha then some ([], .word [c])
  else (punctuation? c).map fun t => ([t], .between)

/-- A unit of a numeric escape: a character, a leading surrogate, or the second half of a pair. -/
def unit? (chars : List Char) (lead : Option Nat) (n : Nat) : Option Mode :=
  match lead with
  | none =>
    if isLead n then some (.lead chars n)
    else if isTrail n then none
    else some (.string (Char.ofNat n :: chars))
  | some l =>
    if isTrail n then
      some (.string (Char.ofNat (0x10000 + (l - 0xd800) * 0x400 + (n - 0xdc00)) :: chars))
    else none

/-- The token that ends where the text does or before a character that cannot continue it. -/
def finish? : Mode → Option (List Token)
  | .between => some []
  | .word letters => (word? (String.ofList letters.reverse)).map fun v => [scalar v]
  | .number chars => (Number.value? chars.reverse).map fun v => [scalar v]
  | _ => none

def step? : Mode → Char → Option (List Token × Mode)
  | .between, c => between? c
  | .word letters, c =>
    if c.isAlpha then some ([], .word (c :: letters))
    else do
      let done ← finish? (.word letters)
      let (tokens, mode) ← between? c
      return (done ++ tokens, mode)
  | .number chars, c =>
    if isNumeric c then some ([], .number (c :: chars))
    else do
      let done ← finish? (.number chars)
      let (tokens, mode) ← between? c
      return (done ++ tokens, mode)
  | .string chars, c =>
    if c = '"' then some ([text (String.ofList chars.reverse)], .between)
    else if c = '\\' then some ([], .escape chars)
    else if c.toNat < 0x20 then none
    else some ([], .string (c :: chars))
  | .escape chars, c =>
    if c = 'u' then some ([], .unit chars none 0 0)
    else (escaped? c).map fun e => ([], .string (e :: chars))
  | .unit chars lead count value, c => do
    let d ← hexDigit? c
    let value := 16 * value + d
    if count = 3 then (unit? chars lead value).map fun mode => ([], mode)
    else some ([], .unit chars lead (count + 1) value)
  | .lead chars unit, c => if c = '\\' then some ([], .leadEscape chars unit) else none
  | .leadEscape chars unit, c => if c = 'u' then some ([], .unit chars (some unit) 0 0) else none

def scanFrom : Mode → List Char → Option (List Token)
  | mode, [] => finish? mode
  | mode, c :: rest => do
    let (tokens, next) ← step? mode c
    let more ← scanFrom next rest
    return tokens ++ more

def scan? (cs : List Char) : Option (List Token) :=
  scanFrom .between cs

end Token

end Strongbox.Json
