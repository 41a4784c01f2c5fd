import Strongbox.Proofs.Acts.KeyFile
import Strongbox.Session.Run

/-! # What leaves no trace in a session

Looking up what names stand for, making ciphers, handlers and stores, decrypting and reporting
values leave the random source and the files alone. Calls on files draw nothing either. -/

namespace Strongbox

theorem Work.silent_conclude {α : Type} (r : Except Stop α) : Silent (conclude r) := by
  cases r with
  | ok a => exact .pure a
  | error s => exact .throw s

namespace Session

/-! ## Names and values -/

theorem silent_entry {α : Type} (entries : Session → List α) (i : Nat) :
    Silent (entry entries i) := by
  refine Leaves.get.bind fun s => ?_
  split
  · exact .pure _
  · exact .throw _

theorem silent_refuse {α : Type} (m : Misuse) : Silent (refuse m : Work α) :=
  .throw _

theorem silent_resolve (t : Term) : Silent (resolve t) := by
  refine Leaves.get.bind fun s => ?_
  split
  · exact .ite (silent_refuse _) (.pure _)
  · exact .throw _

theorem silent_shown (v : Value) : Silent (shown v) :=
  .ite (silent_refuse _) (.ite (silent_refuse _) (.pure _))

theorem silent_resolveAll (ts : List Term) : Silent (resolveAll ts) :=
  .mapM silent_resolve ts

theorem silent_resolveEntries (entries : List (String × Term)) :
    Silent (resolveEntries entries) := by
  refine Leaves.bind (.mapM (fun (k, t) => ?_) entries) fun _ => .pure _
  exact (silent_resolve t).bind fun _ => .pure _

theorem silent_newValue (v : Value) : Silent (newValue v) :=
  .modifyGet fun _ => rfl

theorem silent_heldAt (name : String) : Silent (heldAt name) := by
  refine Leaves.get.bind fun s => ?_
  split
  · exact .pure _
  · exact .throw _

theorem silent_sameValue (t : Term) (v : Value) : Silent (sameValue t v) := by
  unfold sameValue
  split
  · exact silent_heldAt _
  · exact .ite (.pure _) (silent_newValue v)

theorem silent_storeNamed (name : String) : Silent (storeNamed name) := by
  refine (silent_heldAt name).bind fun held => ?_
  split
  · exact .pure _
  · exact silent_refuse _

theorem silent_lazyNamed (name : String) : Silent (lazyNamed name) := by
  refine (silent_heldAt name).bind fun held => ?_
  split
  · exact .pure _
  · exact silent_refuse _

theorem silent_addCipher (c : Cipher) : Silent (addCipher c) :=
  .modifyGet fun _ => rfl

theorem silent_addHandler (h : SharedHandler) : Silent (addHandler h) :=
  .modifyGet fun _ => rfl

theorem silent_addStore (k : KeyStore) : Silent (addStore k) :=
  .modifyGet fun _ => rfl

theorem silent_addLazy (l : LazyHandler) : Silent (addLazy l) :=
  .modifyGet fun _ => rfl

theorem silent_replyValue (v : Value) : Silent (replyValue v) :=
  (silent_shown v).bind fun _ => (silent_newValue v).bind fun _ => .pure _

theorem silent_replyPassed (passed : Bool) (argument : Term) (v : Value) :
    Silent (replyPassed passed argument v) :=
  .ite ((silent_shown v).bind fun _ => (silent_sameValue argument v).bind fun _ => .pure _)
    (silent_replyValue v)

theorem silent_replyFile (r : Reply) : Silent (replyFile r) := by
  unfold replyFile
  split
  · exact silent_replyValue _
  · exact .pure _

theorem silent_keep (name : Option String) (held : Option Held) : Silent (keep name held) := by
  unfold keep
  split
  · exact .modify fun _ => rfl
  · exact .pure _

/-! ## Ciphers and handlers -/

theorem silent_breakCipher (i : Option Nat) (f : Option Fault) : Silent (breakCipher i f) := by
  unfold breakCipher
  split
  · exact .modify fun _ => rfl
  · exact .pure _

theorem silent_chooseCipher (choice : CipherChoice) : Silent (chooseCipher choice) := by
  unfold chooseCipher
  split
  · exact (silent_addCipher _).bind fun _ => .pure _
  · rename_i t
    refine (silent_resolve t).bind fun v => ?_
    refine (Cipher.silent_make v).task_inSession.bind fun c => ?_
    exact (silent_addCipher c).bind fun _ => .pure _
  · refine (silent_heldAt _).bind fun held => ?_
    split <;> exact .pure _

theorem silent_cipherOf (u : CipherUse) : Silent (cipherOf u) := by
  refine (silent_chooseCipher _).bind fun choice => ?_
  refine (silent_breakCipher _ _).bind fun _ => ?_
  split
  · exact silent_entry _ _
  · exact silent_refuse _

theorem silent_chooseHandler (u : HandlerUse) : Silent (chooseHandler u) := by
  refine Leaves.get.bind fun s => ?_
  split
  · exact .pure _
  · refine (silent_chooseCipher _).bind fun cipher => ?_
    refine (silent_breakCipher _ _).bind fun _ => ?_
    exact (Leaves.log _ _).task_inSession.bind fun _ => silent_addHandler _

theorem silent_handlerAt (i : Nat) : Silent (handlerAt i) := by
  refine (silent_entry _ _).bind fun h => ?_
  split
  · exact (silent_entry _ _).bind fun _ => .pure _
  · exact .pure _

theorem silent_requireCipher (i : Nat) : Silent (requireCipher i) :=
  (silent_entry _ _).bind fun _ => .ite (silent_refuse _) (.pure _)

theorem silent_numberedHandler (u : HandlerUse) : Silent (numberedHandler u) :=
  (silent_chooseHandler u).bind fun i => (silent_handlerAt i).bind fun _ => .pure _

theorem silent_importKey (secret : Term) : Silent (importKey secret) := by
  refine (silent_resolve secret).bind fun v => ?_
  refine (Cipher.silent_make v).task_inSession.bind fun c => ?_
  refine (silent_addCipher c).bind fun i => ?_
  split
  · refine (Cipher.silent_make _).task_inSession.bind fun other => ?_
    exact (Cipher.silent_make _).task_inSession.bind fun again => .pure _
  · exact .pure _

/-! ## Properties and documents -/

theorem silent_resolveSources (sources : List (List (String × Term))) :
    Silent (resolveSources sources) :=
  .mapM silent_resolveEntries sources

theorem silent_decryptProperties (u : HandlerUse) (sources : List (List (String × Term))) :
    Silent (decryptProperties u sources) := by
  refine (silent_numberedHandler u).bind fun (i, h) => ?_
  refine (silent_resolveSources sources).bind fun sources => ?_
  have hdecrypt : Silent (Properties.decrypt h sources).inSession :=
    (h.silent_decrypt sources).task_inSession
  exact .ite ((silent_requireCipher i).bind fun _ => hdecrypt.bind fun _ => .pure _)
    (hdecrypt.bind fun _ => .pure _)

theorem silent_answer (p : PropertyView) (q : Query) : Silent (answer p q) := by
  cases q with
  | get k => exact Work.silent_conclude _
  | getD k default => exact (silent_resolve default).bind fun _ => .pure _
  | equals t => exact (silent_resolve t).bind fun _ => .pure _
  | _ => exact .pure _

theorem silent_answers (i : Nat) (h : Handler) (sources : List Source) (queries : List Query) :
    Silent (answers i h sources queries) := by
  have hanswers : Silent (do
      let p ← (PropertyView.build h sources).inSession
      return Reply.answers (← queries.mapM fun q => (answer p q >>= shown).observe) :
        Work Reply) := by
    refine (h.silent_build sources).task_inSession.bind fun p => ?_
    refine Leaves.bind (.mapM (fun q => ?_) queries) fun _ => .pure _
    exact ((silent_answer p q).bind silent_shown).observe
  exact .ite ((silent_requireCipher i).bind fun _ => hanswers) hanswers

theorem silent_viewProperties (u : HandlerUse) (sources : List (List (String × Term)))
    (queries : List Query) : Silent (viewProperties u sources queries) := by
  refine (silent_numberedHandler u).bind fun (i, h) => ?_
  exact (silent_resolveSources sources).bind fun sources => silent_answers i h sources queries

theorem silent_readDocument (path : Path) : Silent (Properties.readDocument path) := by
  refine .ite (.throw _) (Leaves.get.bind fun w => ?_)
  split
  · exact .pure _
  · exact .throw _

theorem silent_load (path : String) : Silent (Properties.load path) := by
  refine (silent_readDocument _).bind fun document => ?_
  split
  · exact .pure _
  · exact .throw _

theorem drawless_writeDocument (path : String) (content : Bytes) :
    Drawless (writeDocument path content) := by
  refine .ite (.throw _) (.get_bind fun w => ?_)
  split <;> rfl

/-! ## Files -/

theorem drawless_onFiles {α : Type} (paths : List String)
    (call : FileTree → Except SystemCode (α × FileTree)) : Drawless (onFiles paths call) := by
  refine .ite (.throw _) (.get_bind fun w => ?_)
  split <;> rfl

theorem drawless_writeFile (path : String) (content : Bytes) :
    Drawless (writeFile path content) := by
  have hwrite : Drawless (do
      fileChange [path] fun t => t.writeFile path fileMode content
      fileChange [path] fun t => t.changeMode path fileMode) :=
    (drawless_onFiles _ _).bind fun _ => drawless_onFiles _ _
  refine Leaves.get.bind fun w => ?_
  exact .ite ((drawless_onFiles _ _).bind fun _ => hwrite) hwrite

theorem drawless_performFileCall (call : FileCall) : Drawless (performFileCall call) := by
  cases call with
  | write path content => exact (drawless_writeFile path content).bind fun _ => .pure _
  | makeDirectory path =>
      refine Leaves.bind ?_ fun _ => .pure _
      exact fun _ => rfl
  | makeLink path target => exact (drawless_onFiles _ _).bind fun _ => .pure _
  | unlink path => exact (drawless_onFiles _ _).bind fun _ => .pure _
  | read path => exact drawless_onFiles _ _
  | status path => exact drawless_onFiles _ _
  | listing => exact Leaves.get.bind fun _ => .pure _

/-! ## Settings, failures and outcomes -/

theorem silent_checkVariable (name value : String) : Silent (checkVariable name value) :=
  .ite (.throw _) (.ite (.throw _) (.pure _))

theorem silent_setUp (environment : Environment) : Silent (setUp environment) :=
  (Leaves.forM (fun (name, value) => silent_checkVariable name value) environment).bind
    fun _ => .pure _

theorem silent_loadSettings (environment : Environment) : Silent (loadSettings environment) := by
  refine (silent_setUp environment).bind fun given => fun w => ?_
  have hentropy : (StateT.run (Settings.load given) w.ambient).2.entropy = w.ambient.entropy := by
    unfold Settings.load
    split <;> rfl
  exact congrArg (Trace.mk · w.files) hentropy

theorem silent_makeSettings (fields : List (String × Term)) : Silent (makeSettings fields) :=
  (silent_resolveEntries fields).bind fun _ => .pure _

theorem silent_makeFailure (cls : FailureClass) (arguments : List Term) :
    Silent (makeFailure cls arguments) :=
  (silent_resolveAll arguments).bind fun _ => .pure _

theorem silent_showFailure (f : Failure) : Silent (showFailure f) :=
  (Leaves.mapM silent_shown f.arguments).bind fun _ => .pure _

theorem silent_showOutcome (o : Outcome) : Silent (showOutcome o) :=
  (silent_shown o.value).bind fun _ => .pure _

theorem silent_makeOutcome (value : Term) (failure : Option (FailureClass × List Term)) :
    Silent (makeOutcome value failure) := by
  unfold makeOutcome
  split
  · exact (silent_resolve value).bind fun _ => .pure _
  · exact (silent_resolve value).bind fun _ => (silent_makeFailure _ _).bind fun _ => .pure _

/-! ## Stores and lazy handlers -/

theorem silent_storeAt (i : Nat) : Silent (storeAt i) :=
  silent_entry stores i

theorem silent_makeStore (path : Option String) (fatal : Bool) : Silent (makeStore path fatal) :=
  (KeyStore.silent_make _ fatal).inSession.bind fun store =>
    (silent_addStore store).bind fun _ => .pure _

theorem silent_makeLazy (name : String) : Silent (makeLazy name) := by
  refine (silent_heldAt name).bind fun held => ?_
  split <;> exact silent_addLazy _

theorem silent_sameLock (a b : String) : Silent (sameLock a b) := by
  refine (silent_heldAt a).bind fun held => (silent_heldAt b).bind fun held' => ?_
  split
  · exact (silent_storeAt _).bind fun _ => (silent_storeAt _).bind fun _ => .pure _
  · exact .pure _
  · exact .pure _
  · exact .pure _
  · exact silent_refuse _

theorem silent_same (a b : String) : Silent (same a b) :=
  (silent_heldAt a).bind fun _ => (silent_heldAt b).bind fun _ => .pure _

end Session

end Strongbox
