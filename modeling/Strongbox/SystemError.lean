import Strongbox.Text.Quoted

/-!
Failures of the file system and of the entropy source, with the numbers and wording of the
operating system.
-/

namespace Strongbox

inductive SystemCode
  | notPermitted
  | noEntry
  | inputOutput
  | accessDenied
  | alreadyExists
  | notDirectory
  | isDirectory
  | invalid
  | tooManyOpen
  | noSpace
  | nameTooLong
  | notEmpty
  | tooManyLinks
deriving DecidableEq

namespace SystemCode

def number : SystemCode → Nat
  | notPermitted => 1
  | noEntry => 2
  | inputOutput => 5
  | accessDenied => 13
  | alreadyExists => 17
  | notDirectory => 20
  | isDirectory => 21
  | invalid => 22
  | tooManyOpen => 24
  | noSpace => 28
  | nameTooLong => 36
  | notEmpty => 39
  | tooManyLinks => 40

def wording : SystemCode → String
  | notPermitted => "Operation not permitted"
  | noEntry => "No such file or directory"
  | inputOutput => "Input/output error"
  | accessDenied => "Permission denied"
  | alreadyExists => "File exists"
  | notDirectory => "Not a directory"
  | isDirectory => "Is a directory"
  | invalid => "Invalid argument"
  | tooManyOpen => "Too many open files"
  | noSpace => "No space left on device"
  | nameTooLong => "File name too long"
  | notEmpty => "Directory not empty"
  | tooManyLinks => "Too many levels of symbolic links"

end SystemCode

/-- A failure may name the file it met; one raised with a text of its own has only that text. -/
structure SystemError where
  code : SystemCode
  file : Option String := none
  note : Option String := none
deriving DecidableEq

namespace SystemError

def text (e : SystemError) : String :=
  match e.note, e.file with
  | some note, _ => note
  | none, some file => s!"[Errno {e.code.number}] {e.code.wording}: {Quoted.text file}"
  | none, none => s!"[Errno {e.code.number}] {e.code.wording}"

end SystemError

end Strongbox
