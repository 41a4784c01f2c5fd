import Strongbox.Bytes
import Strongbox.Number.Binary64
import Strongbox.Text.Broken

/-!
Values of the application: what configuration sources hold and what callers hand over to be
encrypted or decrypted. Only byte strings, in three flavours, count as raw data, and only text
counts as text, with or without surrogates in it.
-/

namespace Strongbox

/-- Fixed byte strings, buffers that their owner may overwrite, and views of either. -/
inductive ByteKind
  | fixed
  | buffer
  | view
deriving DecidableEq

/-- Things that are no data themselves, but work on data or keep it. -/
inductive ThingKind
  | cipher
  | handler
  | store
  | lazyHandler
deriving DecidableEq

namespace ThingKind

def typeName : ThingKind → String
  | cipher => "AES256"
  | handler => "CryptoHandler"
  | store => "SecretKeyStore"
  | lazyHandler => "LazyCryptoHandler"

end ThingKind

/-- What the entries of a dictionary stand under: texts mostly, but any value will do that never
changes and holds no other. -/
inductive EntryKey
  | text (s : String)
  | brokenText (t : BrokenText)
  | null
  | bool (b : Bool)
  | int (n : Int)
  | float (x : Binary64) (label : Option Nat := none)
  | bytes (bs : Bytes)
  | thing (kind : ThingKind) (number : Nat)

inductive Value
  | null
  | bool (b : Bool)
  | int (n : Int)
  /-- The label tells copies of a number apart, of which only a NaN takes notice. -/
  | float (x : Binary64) (label : Option Nat := none)
  | text (s : String)
  | brokenText (t : BrokenText)
  | bytes (kind : ByteKind) (bs : Bytes)
  | list (items : List Value)
  | dict (entries : List (EntryKey × Value))
  /-- A thing, by its number among those of its kind. -/
  | thing (kind : ThingKind) (number : Nat)

def EntryKey.value : EntryKey → Value
  | text s => .text s
  | brokenText t => .brokenText t
  | null => .null
  | bool b => .bool b
  | int n => .int n
  | float x label => .float x label
  | bytes bs => .bytes .fixed bs
  | thing kind number => .thing kind number

namespace Value

/-- A dictionary whose entries all stand under texts. -/
def ofEntries (entries : List (String × Value)) : Value :=
  .dict (entries.map fun e => (.text e.1, e.2))

/-- The entries that stand under texts. -/
def textEntries (entries : List (EntryKey × Value)) : List (String × Value) :=
  entries.filterMap fun
    | (.text k, v) => some (k, v)
    | _ => none

theorem textEntries_map_text (entries : List (String × Value)) :
    textEntries (entries.map fun e => (.text e.1, e.2)) = entries := by
  rw [textEntries, List.filterMap_map]
  exact List.filterMap_some

def ofBytes (bs : Bytes) : Value :=
  .bytes .fixed bs

/-- The name of the type, as error messages give it. -/
def typeName : Value → String
  | null => "NoneType"
  | bool _ => "bool"
  | int _ => "int"
  | float _ _ => "float"
  | text _ | brokenText _ => "str"
  | bytes .fixed _ => "bytes"
  | bytes .buffer _ => "bytearray"
  | bytes .view _ => "memoryview"
  | list _ => "list"
  | dict _ => "dict"
  | thing kind _ => kind.typeName

/-- Absent, zero and empty values count as missing. -/
def isBlank : Value → Bool
  | null => true
  | bool b => !b
  | int n => n = 0
  | float x _ => x.isZero
  | text s => s.isEmpty
  | brokenText _ => false
  | bytes _ bs => bs.isEmpty
  | list items => items.isEmpty
  | dict entries => entries.isEmpty
  | thing _ _ => false

/-- The length of a value that has one: in characters, octets, items or entries. -/
def length? : Value → Option Nat
  | text s => some s.length
  | brokenText t => some t.length
  | bytes _ bs => some bs.length
  | list items => some items.length
  | dict entries => some entries.length
  | _ => none

/-- The value as an integer, where truth values count as 0 and 1. -/
def toInt? : Value → Option Int
  | bool b => some (if b then 1 else 0)
  | int n => some n
  | _ => none

/-- Equality of values that hold no others: numbers of all kinds compare by value and byte strings
of all kinds by octets. A NaN is equal to nothing but the same copy. -/
def equalPlain : Value → Value → Bool
  | null, null => true
  | text s, text t => s = t
  | brokenText s, brokenText t => s = t
  | bytes _ a, bytes _ b => a = b
  | thing k i, thing l j => k = l && i = j
  | float x i, float y j => x.sameNumber y || i.isSome && i = j && x = y
  | float x _, w => w.toInt?.isSome && x.toInt? = w.toInt?
  | v, float y _ => v.toInt?.isSome && v.toInt? = y.toInt?
  | v, w => v.toInt?.isSome && v.toInt? = w.toInt?

instance : BEq EntryKey where
  beq k l := equalPlain k.value l.value

mutual

/-- Equality of contents, for dictionaries without regard to order. -/
def equals : Value → Value → Bool
  | list a, list b => a.length = b.length && equalItems a b
  | dict a, dict b => a.length = b.length && equalEntries a b
  | v, w => equalPlain v w

def equalItems : List Value → List Value → Bool
  | v :: vs, w :: ws => equals v w && equalItems vs ws
  | _, _ => true

/-- Each entry of the first has an equal one under its key in the second. -/
def equalEntries : List (EntryKey × Value) → List (EntryKey × Value) → Bool
  | [], _ => true
  | (k, v) :: rest, b =>
    (match b.lookup k with
      | some w => equals v w
      | none => false) && equalEntries rest b

end

/-- The key with a label if it is a number that has none yet. -/
def labelledKey (i : Nat) : EntryKey → EntryKey
  | .float x none => .float x (some i)
  | k => k

mutual

/-- The value with a label on every number in it that has none yet. -/
def labelled (i : Nat) : Value → Value
  | float x none => float x (some i)
  | list items => list (labelledItems i items)
  | dict entries => dict (labelledEntries i entries)
  | v => v

def labelledItems (i : Nat) : List Value → List Value
  | [] => []
  | v :: vs => labelled i v :: labelledItems i vs

def labelledEntries (i : Nat) : List (EntryKey × Value) → List (EntryKey × Value)
  | [] => []
  | (k, v) :: rest => (labelledKey i k, labelled i v) :: labelledEntries i rest

end

mutual

/-- Whether no thing is in the value. -/
def isData : Value → Bool
  | thing _ _ => false
  | list items => areData items
  | dict entries => entriesAreData entries
  | _ => true

def areData : List Value → Bool
  | [] => true
  | v :: vs => isData v && areData vs

def entriesAreData : List (EntryKey × Value) → Bool
  | [] => true
  | (.thing _ _, _) :: _ => false
  | (_, v) :: rest => isData v && entriesAreData rest

end

mutual

/-- How deep lists and dictionaries lie in each other; a dictionary takes more room than a list. -/
def depth : Value → Nat
  | list items => 2 + depthOfItems items
  | dict entries => 3 + depthOfEntries entries
  | _ => 0

def depthOfItems : List Value → Nat
  | [] => 0
  | v :: vs => max (depth v) (depthOfItems vs)

def depthOfEntries : List (EntryKey × Value) → Nat
  | [] => 0
  | (_, v) :: rest => max (depth v) (depthOfEntries rest)

end

end Value

end Strongbox
