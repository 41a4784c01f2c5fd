import Strongbox.Bytes

/-!
Standard Base64 with padding. Encoding is canonical. Decoding is strict about the alphabet and the
padding and lenient about the unused low bits of the last group: `sextets` reads a text from left
to right, and `octets` cuts whole bytes out of the six-bit groups it found.
-/

namespace Strongbox.Base64

/-- A six-bit group. -/
abbrev Sextet := Fin 64

def alphabet : List Char :=
  "ABCDEFGHIJKLMNOPQRSTUVWXYZabcdefghijklmnopqrstuvwxyz0123456789+/".toList

theorem length_alphabet : alphabet.length = 64 := by decide

def symbol (s : Sextet) : Char :=
  alphabet.get (s.cast length_alphabet.symm)

def value? (c : Char) : Option Sextet :=
  (List.finRange 64).find? fun s => symbol s == c

/-- Three octets as four groups; a missing octet counts as zero. -/
def split (a b c : UInt8) : Sextet × Sextet × Sextet × Sextet :=
  let n := (a.toNat * 256 + b.toNat) * 256 + c.toNat
  (Fin.ofNat 64 (n / 262144), Fin.ofNat 64 (n / 4096), Fin.ofNat 64 (n / 64), Fin.ofNat 64 n)

/-- Four groups as three octets. -/
def join (s t u v : Sextet) : UInt8 × UInt8 × UInt8 :=
  let n := ((s.val * 64 + t.val) * 64 + u.val) * 64 + v.val
  (UInt8.ofNat (n / 65536), UInt8.ofNat (n / 256), UInt8.ofNat n)

/-- Every three octets become four characters; one or two left over are padded to four. -/
def encodeChars : Bytes → List Char
  | [] => []
  | [a] =>
    let (s, t, _, _) := split a 0 0
    [symbol s, symbol t, '=', '=']
  | [a, b] =>
    let (s, t, u, _) := split a b 0
    [symbol s, symbol t, symbol u, '=']
  | a :: b :: c :: rest =>
    let (s, t, u, v) := split a b c
    symbol s :: symbol t :: symbol u :: symbol v :: encodeChars rest

def encode (bs : Bytes) : String :=
  String.ofList (encodeChars bs)

/-- The whole octets held by a run of six-bit groups; bits left over are dropped. -/
def octets : List Sextet → Bytes
  | s :: t :: u :: v :: rest =>
    let (a, b, c) := join s t u v
    a :: b :: c :: octets rest
  | [s, t, u] =>
    let (a, b, _) := join s t u 0
    [a, b]
  | [s, t] =>
    let (a, _, _) := join s t 0 0
    [a]
  | [_] => []
  | [] => []

/-- How far a text has been read: groups since the last whole four, padding marks that counted,
and whether any padding mark was met. -/
structure Progress where
  quad : Nat
  pads : Nat
  padded : Bool

namespace Progress

def start : Progress := ⟨0, 0, false⟩

/-- A group was read. -/
def group (p : Progress) : Progress :=
  { p with quad := (p.quad + 1) % 4 }

/-- A padding mark was read; it counts only after two groups of an unfinished four. -/
def pad (p : Progress) : Progress :=
  ⟨p.quad, if 2 ≤ p.quad then p.pads + 1 else p.pads, true⟩

/-- The last four is filled up by padding. -/
def complete (p : Progress) : Bool :=
  2 ≤ p.quad && 4 ≤ p.quad + p.pads

end Progress

/-- The groups of a text. After a padding mark no group may follow, nothing follows a last four
that padding has filled up, and without such padding the groups come in whole fours. -/
def scan : Progress → List Char → Option (List Sextet)
  | p, [] => if p.quad = 0 then some [] else none
  | p, c :: rest =>
    if c = '=' then
      if p.pad.complete then
        if rest.isEmpty then some [] else none
      else scan p.pad rest
    else if p.padded then none
    else do
      let s ← value? c
      let groups ← scan p.group rest
      return s :: groups

/-- A text may not open with a padding mark. -/
def sextets (cs : List Char) : Option (List Sextet) :=
  if cs.head? = some '=' then none else scan .start cs

def decode (cs : List Char) : Option Bytes :=
  (sextets cs).map octets

end Strongbox.Base64
