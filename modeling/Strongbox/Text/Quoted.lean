import Strongbox.Bytes
import Strongbox.Text.Broken
import Strongbox.Text.Printable

/-!
Quoted texts: one line, in quotation marks, with a backslash before each character that cannot
stand for itself.
-/

namespace Strongbox.Quoted

/-- Single quotation marks, unless the text has a single one and no double one. -/
def mark (cs : List Char) : Char :=
  if cs.contains '\'' && !cs.contains '"' then '"' else '\''

def hexDigit (n : Nat) : Char :=
  "0123456789abcdef".toList.getD n '0'

/-- The last `width` hexadecimal digits. -/
def hex : Nat → Nat → List Char
  | 0, _ => []
  | width + 1, n => hex width (n / 16) ++ [hexDigit (n % 16)]

/-- The escapes shared by texts and byte strings. -/
def short? (mark c : Char) : Option (List Char) :=
  if c = mark ∨ c = '\\' then some ['\\', c]
  else if c = '\n' then some ['\\', 'n']
  else if c = '\r' then some ['\\', 'r']
  else if c = '\t' then some ['\\', 't']
  else none

/-- A hidden character is written by number, with as many digits as its plane needs. -/
def escape (mark c : Char) : List Char :=
  match short? mark c with
  | some cs => cs
  | none =>
    if Text.isPrintable c then [c]
    else if c.toNat < 0x100 then '\\' :: 'x' :: hex 2 c.toNat
    else if c.toNat < 0x10000 then '\\' :: 'u' :: hex 4 c.toNat
    else '\\' :: 'U' :: hex 8 c.toNat

def chars (cs : List Char) : List Char :=
  let m := mark cs
  m :: cs.flatMap (escape m) ++ [m]

def text (s : String) : String :=
  String.ofList (chars s.toList)

/-- The characters that a surrogate is written with. -/
def surrogate (n : Fin 2048) : List Char :=
  '\\' :: 'u' :: hex 4 (0xd800 + n)

def escapePoint (mark : Char) : CodePoint → List Char
  | .char c => escape mark c
  | .surrogate n => surrogate n

def broken (t : BrokenText) : String :=
  let m := mark t.characters
  String.ofList (m :: t.points.flatMap (escapePoint m) ++ [m])

/-- Characters stand for themselves, and only surrogates are written by number. -/
def displayed (t : BrokenText) : String :=
  String.ofList (t.points.flatMap fun
    | .char c => [c]
    | .surrogate n => surrogate n)

/-- Octets outside the visible ASCII range are written by number. -/
def escapeOctet (mark : Char) (b : UInt8) : List Char :=
  match short? mark (Char.ofUInt8 b) with
  | some cs => cs
  | none =>
    if 0x20 ≤ b ∧ b < 0x7f then [Char.ofUInt8 b] else '\\' :: 'x' :: hex 2 b.toNat

def bytes (bs : Bytes) : String :=
  let m := mark (bs.map Char.ofUInt8)
  String.ofList ('b' :: m :: bs.flatMap (escapeOctet m) ++ [m])

/-- In buffers the single quotation mark is escaped whichever mark is used, and no other is. -/
def buffer (bs : Bytes) : String :=
  let m := mark (bs.map Char.ofUInt8)
  String.ofList ('b' :: m :: bs.flatMap (escapeOctet '\'') ++ [m])

end Strongbox.Quoted
