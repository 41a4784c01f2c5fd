import Strongbox.Dictionary
import Strongbox.Json.Token
import Strongbox.Text.Utf8

/-!
JSON documents in UTF-8, read strictly: no comments, no trailing commas, no byte order mark, and
no deeper nesting than a fixed limit. A repeated member name keeps its first place and takes its
last value.
-/

namespace Strongbox.Json

/-- An array or object that has been opened; what it holds so far is in reverse. -/
inductive Frame
  | array (items : List Value)
  | object (members : List (String × Value)) (name : String)

/-- What may come next. -/
inductive Want
  | value
  | valueOrEnd
  | name (members : List (String × Value))
  | nameOrEnd
  | colon (members : List (String × Value)) (name : String)
  | separator
  | nothing (v : Value)

structure State where
  stack : List Frame
  want : Want

namespace State

def start : State := ⟨[], .value⟩

/-- The levels of nesting that are accepted. -/
def maxDepth : Nat := 1024

/-- A value is complete. -/
def deliver (v : Value) : List Frame → State
  | [] => ⟨[], .nothing v⟩
  | .array items :: rest => ⟨.array (v :: items) :: rest, .separator⟩
  | .object members name :: rest => ⟨.object ((name, v) :: members) name :: rest, .separator⟩

def objectOf (members : List (String × Value)) : Value :=
  .ofEntries (Dictionary.ofList members.reverse).entries

def openArray? (stack : List Frame) : Option State :=
  if stack.length < maxDepth then some ⟨.array [] :: stack, .valueOrEnd⟩ else none

/-- An object is put on the stack with its first member's name; until then only its depth counts. -/
def openObject? (stack : List Frame) : Option State :=
  if stack.length < maxDepth then some ⟨stack, .nameOrEnd⟩ else none

def value? (stack : List Frame) : Token → Option State
  | .text s => some (deliver (.text s) stack)
  | .scalar v => some (deliver v stack)
  | .openArray => openArray? stack
  | .openObject => openObject? stack
  | _ => none

def separator? : List Frame → Token → Option State
  | .array items :: rest, .comma => some ⟨.array items :: rest, .value⟩
  | .array items :: rest, .closeArray => some (deliver (.list items.reverse) rest)
  | .object members _ :: rest, .comma => some ⟨rest, .name members⟩
  | .object members _ :: rest, .closeObject => some (deliver (objectOf members) rest)
  | _, _ => none

def step? (s : State) (t : Token) : Option State :=
  match s.want, t with
  | .value, t => value? s.stack t
  | .valueOrEnd, .closeArray => separator? s.stack .closeArray
  | .valueOrEnd, t => value? s.stack t
  | .name members, .text name => some ⟨s.stack, .colon members name⟩
  | .nameOrEnd, .text name => some ⟨s.stack, .colon [] name⟩
  | .nameOrEnd, .closeObject => some (deliver (objectOf []) s.stack)
  | .colon members name, .colon => some ⟨.object members name :: s.stack, .value⟩
  | .separator, t => separator? s.stack t
  | _, _ => none

def run? : State → List Token → Option Value
  | ⟨_, .nothing v⟩, [] => some v
  | _, [] => none
  | s, t :: rest => do
    let next ← s.step? t
    run? next rest

end State

def parseChars? (cs : List Char) : Option Value := do
  let tokens ← Token.scan? cs
  State.start.run? tokens

def parse? (document : Bytes) : Option Value := do
  let text ← Utf8.decode document
  parseChars? text.toList

end Strongbox.Json
