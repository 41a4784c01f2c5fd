import Strongbox.CommandLine.Run
import Strongbox.KeyFile
import Strongbox.Outcome
import Strongbox.Session.Term

/-!
What can be done in a session, and what comes back. Everything is referred to by name or described
on the spot.
-/

namespace Strongbox

/-- A cipher of the session, or a new one. -/
inductive CipherChoice
  | named (name : String)
  | secret (t : Term)
  | zeroKey

/-- A cipher whose primitive may be made to fail from now on. -/
structure CipherUse where
  choice : CipherChoice
  fault : Option Fault := none

/-- A handler of the session, or a new one for a cipher. -/
structure HandlerUse where
  cipher : CipherUse
  marker : Option String := none

/-- A question to a view of properties. -/
inductive Query
  | get (key : String)
  | getD (key : String) (default : Term)
  | contains (key : String)
  | keys
  | size
  | summary
  | decryptedKeys
  | items
  | equals (t : Term)

/-- A document by its path; one that is given with its content is written there first. -/
structure Document where
  path : String
  content : Option Bytes

inductive FileCall
  | write (path : String) (content : Bytes)
  | makeDirectory (path : String)
  | makeLink (path target : String)
  | unlink (path : String)
  | read (path : String)
  | status (path : String)
  | listing

inductive StoreCall
  | path
  | isLoaded
  | load
  | copy
  /-- The caller takes a copy and zeroes it, then asks again. -/
  | scrub

/-- Variables and their values. -/
abbrev Environment := List (String × String)

inductive Operation
  | importKey (secret : Term)
  | useCipher (cipher : CipherUse) (c : Conversion) (argument : Term)
  | makeHandler (handler : HandlerUse)
  | isMarked (handler : HandlerUse) (argument : Term)
  | convert (handler : HandlerUse) (c : Conversion) (argument : Term)
  | attempt (handler : HandlerUse) (c : Conversion) (argument : Term)
  | storeAttribute (handler : HandlerUse) (argument : Term)
  | restoreAttribute (handler : HandlerUse) (argument : Term)
  | decryptProperties (handler : HandlerUse) (sources : List (List (String × Term)))
  | viewProperties (handler : HandlerUse) (sources : List (List (String × Term)))
    (queries : List Query)
  | loadDocument (document : Document)
  | viewDocument (document : Document) (handler : HandlerUse) (queries : List Query)
  | loadSettings (environment : Environment)
  | makeSettings (fields : List (String × Term))
  | makeFailure (cls : FailureClass) (arguments : List Term)
  | makeOutcome (value : Term) (failure : Option (FailureClass × List Term))
  | commandLine (arguments : List String) (environment : Environment) (seed : Int)
  | file (call : FileCall)
  | keyFile (path : String) (fatal : Bool) (faults : KeyFile.Faults)
  | makeStore (path : Option String) (fatal : Bool)
  | askStore (store : String) (call : StoreCall) (faults : KeyFile.Faults)
  | sameLock (a b : String)
  | handlerOfStore (store : String) (faults : KeyFile.Faults)
  | makeLazy (store : String)
  | forceLazy (name : String) (faults : KeyFile.Faults)
  | same (a b : String)
  /-- So many callers at once, dealt out to the stores or lazy handlers in turn. -/
  | concurrent (names : List String) (callers : Nat)

/-- Why an operation of a session came to nothing. -/
inductive Stop
  | abort (a : Abort)
  | unbound (name : String)

inductive Reply
  | value (v : Value)
  | key (k : Key)
  /-- A key that was made up, whether its text imports it again, and whether another one differs. -/
  | freshKey (k : Key) (reimported another : Bool)
  | handler (h : Handler)
  | answers (as : List (Except Stop Value))
  | settings (s : Settings)
  | refusedSettings (errors : List SettingError)
  | failure (f : Failure)
  | outcome (o : Outcome)
  | ending (e : CommandLine.Ending)
  | status (e : Entry)
  | store (s : KeyStore)
  | lazy
  /-- How many different keys or handlers the callers got, and the keys. -/
  | crowd (distinct : Nat) (keys : List Bytes)

end Strongbox
