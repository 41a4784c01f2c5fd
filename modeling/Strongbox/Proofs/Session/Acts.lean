import Strongbox.Proofs.Session.Silence

/-! # What operations of a session draw

Every operation has an account of the encryptions that it asks for, of the stages of its runs on key
files and of the calls on files that it makes itself. Whatever is read of the random source or put
in files while an operation is performed is on its account, and most operations have nothing on
theirs. -/

namespace Strongbox

/-! ## Encryption -/

/-- The account of an encryption that is asked for now. -/
def Sealing.account (s : Sealing) : Task (List Act) := do
  return [s.act (← get).entropy]

/-- The account of a conversion. -/
def Conversion.account (conversion : Conversion) (c : Cipher) (marker : String) (v : Value) :
    Task (List Act) :=
  match conversion.form? marker with
  | some form => Sealing.account ⟨c, form, v⟩
  | none => return []

namespace Session

def convertActs (i : Nat) (c : Conversion) (argument : Term) : Work (List Act) := do
  let h ← handlerAt i
  let v ← resolve argument
  if c ≠ .decryptText || h.isMarked v then requireCipher i
  (c.account h.cipher h.marker v).inSession

def askCipherActs (u : CipherUse) (c : Conversion) (argument : Term) : Work (List Act) := do
  match (← get).handlerNamed? u.choice with
  | some i =>
    match c with
    | .encryptText | .decryptText => convertActs i c argument
    | _ => return []
  | none => do
    let cipher ← cipherOf u
    (c.account cipher "" (← resolve argument)).inSession

def storeAttributeActs (i : Nat) (argument : Term) : Work (List Act) := do
  let h ← handlerAt i
  let v ← resolve argument
  match v with
  | .null => return []
  | v => do
    requireCipher i
    (Sealing.account ⟨h.cipher, .text h.marker, v⟩).inSession

end Session

/-! ## Commands -/

namespace CommandLine

variable {σ : Type} [ChoiceSource σ]

/-- The text that a command encrypts, after what it prints first. -/
def plaintext? (settings : Settings) (source : σ) : Command → Option (String × String)
  | .encrypt text => some (quoteLine "text" text ++ "\n", text)
  | .password length =>
    let size := length.getD settings.passwordLength
    match (Password.generate Password.standardAlphabet.toList size source).1 with
    | .ok password => some ("random password\n" ++ quoteLine "text" password ++ "\n", password)
    | .error _ => none
  | .version | .decrypt _ => none

def openingActs (settings : Settings) : Action (List Act) := do
  let store ← KeyStore.make settings.secretPath true
  return recorded (KeyStore.acts {}) { store, world := ← get }

def sealingActs (settings : Settings) (source : σ) (c : Command) (h : Handler) : Job (List Act) :=
  match plaintext? settings source c with
  | some (front, text) =>
    perform (Sealing.account ⟨h.cipher, .printed front h.marker, .text text⟩).inWorld
  | none => return []

def executeActs (settings : Settings) (source : σ) (c : Command) : Job (List Act) :=
  followed (perform (openingActs settings)) (perform (openHandler settings))
    (sealingActs settings source c)

/-- A terminal that nothing has been printed or logged on. -/
def blankTerminal (w : World) : Terminal :=
  ⟨{ w with ambient := { w.ambient with log := [] } }, ""⟩

def runActs (arguments : List String) (environment : String → Option String) (source : σ)
    (w : World) : List Act :=
  match read arguments with
  | .run .version => []
  | .run c =>
    match Settings.ofVariables environment with
    | .error _ => []
    | .ok settings => recorded (executeActs settings source c) (blankTerminal w)
  | _ => []

end CommandLine

namespace Session

def commandLineActs (arguments : List String) (environment : Environment) (seed : Int) :
    Action (List Act) := do
  let given ← setUp environment
  return CommandLine.runActs arguments given (Twister.ofSeed seed.natAbs) (← get)

/-! ## Stores and lazy handlers -/

/-- The account of so many loads, one after the other. -/
def loadActs (i : Nat) (faults : KeyFile.Faults) : Nat → Work (List Act)
  | 0 => return []
  | n + 1 =>
    followed (atStore i (KeyStore.acts faults)) (atStore i (KeyStore.load faults)) fun _ =>
      loadActs i faults n

end Session

/-- How often the key is asked for. -/
def StoreCall.loads : StoreCall → Nat
  | path | isLoaded => 0
  | load | copy => 1
  | scrub => 3

namespace Session

/-- A lazy handler that has been built already does nothing. -/
def lazyActs (i : Nat) (faults : KeyFile.Faults) : Work (List Act) := do
  let l ← entry lazies i
  match l.handler.built, l.store with
  | none, some store => atStore store (KeyStore.acts faults)
  | _, _ => return []

def lazyCrowdActs : List Nat → Work (List Act)
  | [] => return []
  | i :: rest => followed (lazyActs i {}) (forceLazy i {}).observe fun _ => lazyCrowdActs rest

/-- The callers at the stores of a session. -/
def gather (stores : List Nat) (callers : Nat) (s : Session) : Crowd where
  callers := (dealt stores callers).map fun store => { store }
  stores := s.stores
  held := []
  world := s.world

def storeCrowdActs (stores : List Nat) (callers : Nat) : Work (List Act) := do
  return (gather stores callers (← get)).acts (Crowd.inTurn callers)

def concurrentActs (names : List String) (callers : Nat) : Work (List Act) := do
  match (← get).held? (names.headD "") with
  | some (.lazy _) => lazyCrowdActs (dealt (← names.mapM lazyNamed) callers)
  | _ => storeCrowdActs (← names.mapM storeNamed) callers

/-! ## Operations -/

/-- A document that is given with its content is written first. -/
def documentActs (d : Document) : Work (List Act) :=
  match d.content with
  | some _ => Action.inSession filed
  | none => return []

/-- The account of an operation. All operations that are not named have nothing on it. -/
def operationActs : Operation → Work (List Act)
  | .useCipher u c argument => askCipherActs u c argument
  | .convert u c argument | .attempt u c argument => do
    convertActs (← chooseHandler u) c argument
  | .storeAttribute u argument => do storeAttributeActs (← chooseHandler u) argument
  | .loadDocument d | .viewDocument d _ _ => documentActs d
  | .commandLine arguments environment seed =>
    (commandLineActs arguments environment seed).inSession
  | .file _ => Action.inSession filed
  | .keyFile path _ faults => (KeyFile.ensureActs (.ofString path) faults).inSession
  | .askStore store call faults => do loadActs (← storeNamed store) faults call.loads
  | .handlerOfStore store faults => do atStore (← storeNamed store) (KeyStore.acts faults)
  | .forceLazy name faults => do lazyActs (← lazyNamed name) faults
  | .concurrent names callers => concurrentActs names callers
  | _ => return []

end Session

/-! ## The accounts are complete -/

namespace Session

theorem account_sealing {s : Sealing} {α : Type} {t : Task α}
    (h : ∀ a, entropy (lead t a).2 = (s.act a.entropy).left) : Accounts s.account t :=
  ⟨fun a => ⟨⟨rfl, h a⟩, .refl _ _⟩, fun a known => writesOwn_sealing known s a.entropy⟩

theorem account_conversion {c : Cipher} {marker : String} {conversion : Conversion} {v : Value}
    {t : Task Value}
    (hsealing : ∀ form, conversion.form? marker = some form → Sealing.Describes ⟨c, form, v⟩ t)
    (hsilent : conversion.form? marker = none → Silent t) :
    Accounts (conversion.account c marker v) t := by
  unfold Conversion.account
  cases hform : conversion.form? marker with
  | some form => exact account_sealing (hsealing form hform).source
  | none => exact .of_silent (hsilent hform)

theorem handler_accounts (h : Handler) (c : Conversion) (v : Value) :
    Accounts (c.account h.cipher h.marker v) (h.convert c v) :=
  account_conversion (fun _ hform => h.describes_convert hform v)
    fun hform => h.silent_convert hform v

theorem cipher_accounts (c : Cipher) (conversion : Conversion) (v : Value) :
    Accounts (conversion.account c "" v) (c.convert conversion v) :=
  account_conversion (fun _ hform => c.describes_convert hform v)
    fun hform => c.silent_convert hform v

theorem attempt_accounts (h : Handler) (c : Conversion) (v : Value) :
    Accounts (c.account h.cipher h.marker v) (h.attempt c v) := by
  refine ((handler_accounts h c v).then_silent fun _ => .pure _).tryCatch fun e => ?_
  split
  · exact .pure _
  · exact .throw _

theorem convertBy_accounts (i : Nat) (c : Conversion) (argument : Term) :
    Accounts (convertActs i c argument) (convertBy i c argument) := by
  refine .bind (silent_handlerAt i) fun h => .bind (silent_resolve argument) fun v => ?_
  have hneeded : (!(decide (c = .decryptText) && !h.isMarked v)) =
      (decide (c ≠ .decryptText) || h.isMarked v) := by
    simp
  have hconvert : ∀ passed, Accounts (c.account h.cipher h.marker v).inSession
      (do replyPassed passed argument (← (h.convert c v).inSession)) :=
    fun passed => (handler_accounts h c v).task_inSession.then_silent
      fun _ => silent_replyPassed _ _ _
  dsimp only
  rw [hneeded]
  split
  · exact .bind (silent_requireCipher i) fun _ => hconvert _
  · exact hconvert _

theorem attemptBy_accounts (i : Nat) (c : Conversion) (argument : Term) :
    Accounts (convertActs i c argument) (attemptBy i c argument) := by
  refine .bind (silent_handlerAt i) fun h => .bind (silent_resolve argument) fun v => ?_
  have hattempt : Accounts (c.account h.cipher h.marker v).inSession
      (do showOutcome (← (h.attempt c v).inSession)) :=
    (attempt_accounts h c v).task_inSession.then_silent silent_showOutcome
  split
  · exact .bind (silent_requireCipher i) fun _ => hattempt
  · exact hattempt

theorem askCipher_accounts (u : CipherUse) (c : Conversion) (argument : Term) :
    Accounts (askCipherActs u c argument) (askCipher u c argument) := by
  refine .bind .get fun s => ?_
  cases s.handlerNamed? u.choice with
  | some i =>
      cases c with
      | encryptText => exact convertBy_accounts i .encryptText argument
      | decryptText => exact convertBy_accounts i .decryptText argument
      | encryptBytes => exact .of_silent (silent_refuse _)
      | decryptBytes => exact .of_silent (silent_refuse _)
  | none =>
      refine .bind (silent_cipherOf u) fun cipher => .bind (silent_resolve argument) fun v => ?_
      exact (cipher_accounts cipher c v).task_inSession.then_silent silent_replyValue

theorem storeAttribute_accounts (i : Nat) (argument : Term) :
    Accounts (storeAttributeActs i argument) (storeAttribute i argument) := by
  refine .bind (silent_handlerAt i) fun h => .bind (silent_resolve argument) fun v => ?_
  cases v with
  | null => exact .of_silent (silent_replyValue _)
  | _ =>
      refine .bind (silent_requireCipher i) fun _ => ?_
      refine (account_sealing ?_).task_inSession.then_silent silent_replyValue
      exact (Attribute.describes_store h (by nofun)).source

end Session

/-! ## Commands -/

namespace CommandLine

theorem silent_print (line : String) : Silent (print line) :=
  .modify fun _ => rfl

theorem openHandler_accounts (settings : Settings) :
    Accounts (openingActs settings) (openHandler settings) := by
  refine .bind (KeyStore.silent_make _ _) fun store => ?_
  have haccounts := KeyStore.handler_accounts Handler.standardMarker {}
  exact ⟨fun w => haccounts.explains ⟨store, w⟩, fun w => haccounts.writesOwn ⟨store, w⟩⟩

theorem showEncrypted_accounts (h : Handler) (front text : String) :
    Accounts (perform (Sealing.account ⟨h.cipher, .printed front h.marker, .text text⟩).inWorld)
      (showEncrypted h text) := by
  have hsealing : Accounts (Sealing.account ⟨h.cipher, .printed front h.marker, .text text⟩)
      (h.encryptText (.text text)) := Session.account_sealing (h.encryptText_source front text)
  exact (hsealing.inWorld.perform.then_silent fun _ => silent_print _).after_modify
    (fun _ => rfl) fun _ => rfl

theorem silent_showDecrypted (h : Handler) (encrypted : String) :
    Silent (showDecrypted h encrypted) := by
  refine (silent_print _).bind fun _ => Leaves.bind ?_ fun _ => silent_print _
  exact fun t => (h.silent_decryptText _).inWorld t.world

theorem execute_accounts {σ : Type} [ChoiceSource σ] (settings : Settings) (source : σ)
    (c : Command) : Accounts (executeActs settings source c) (execute settings source c) := by
  refine (openHandler_accounts settings).perform.followed fun h => ?_
  cases c with
  | version => exact .of_silent (.pure _)
  | encrypt text => exact showEncrypted_accounts h _ text
  | decrypt encrypted => exact .of_silent (silent_showDecrypted h encrypted)
  | password length =>
      unfold sealingActs plaintext?
      dsimp only
      generalize (Password.generate Password.standardAlphabet.toList _ source).1 = generated
      cases generated with
      | error m => exact .of_silent (.throw _)
      | ok password =>
          exact (showEncrypted_accounts h _ password).after_modify (fun _ => rfl) fun _ => rfl

theorem runCommand_trace {σ : Type} [ChoiceSource σ] (settings : Settings) (source : σ)
    (c : Command) (w : World) :
    trace (runCommand settings source c w).2 =
      trace (lead (execute settings source c) (blankTerminal w)).2 := by
  unfold runCommand lead blankTerminal
  dsimp only
  generalize StateT.run (ExceptT.run (execute settings source c)) _ = led
  obtain ⟨result, t⟩ := led
  dsimp only
  repeat' split
  all_goals rfl

theorem run_explains {σ : Type} [ChoiceSource σ] (arguments : List String)
    (environment : String → Option String) (source : σ) (w : World) :
    Explains (trace w) (runActs arguments environment source w)
      (trace (run arguments environment source w).2) := by
  unfold run runActs
  cases read arguments with
  | run c =>
      cases hsettings : Settings.ofVariables environment with
      | error errors => cases c <;> exact .nil _
      | ok settings =>
          have hcommand := (execute_accounts settings source c).explains (blankTerminal w)
          rw [← runCommand_trace] at hcommand
          cases c with
          | version => exact .nil _
          | _ => exact hcommand
  | _ => exact .nil _

theorem runActs_writesOwn {σ : Type} [ChoiceSource σ] (arguments : List String)
    (environment : String → Option String) (source : σ) (w : World) (known : Nat → Option Bytes) :
    WritesOwn known (runActs arguments environment source w) := by
  unfold runActs
  repeat' split
  · trivial
  · trivial
  · exact (execute_accounts _ source _).writesOwn _ known
  · trivial

end CommandLine

namespace Session

theorem runCommandLine_accounts (arguments : List String) (environment : Environment) (seed : Int) :
    Accounts (commandLineActs arguments environment seed)
      (runCommandLine arguments environment seed) := by
  refine .bind (silent_setUp environment) fun given => ⟨fun w => ?_, fun w known => ?_⟩
  · exact CommandLine.run_explains arguments given (Twister.ofSeed seed.natAbs) w
  · exact CommandLine.runActs_writesOwn arguments given (Twister.ofSeed seed.natAbs) w known

/-! ## Stores and lazy handlers -/

/-- An action on a store that has been found under a number. -/
def onStore {α : Type} (i : Nat) (a : StoreAction α) (store : KeyStore) : Work α :=
  ExceptT.mk fun s =>
    ((lead a ⟨store, s.world⟩).1.mapError .abort,
      { s with
        stores := s.stores.set i (lead a ⟨store, s.world⟩).2.store
        world := (lead a ⟨store, s.world⟩).2.world })

theorem atStore_eq {α : Type} (i : Nat) (a : StoreAction α) :
    atStore i a = storeAt i >>= onStore i a :=
  rfl

theorem recorded_onStore (i : Nat) (acct : StoreAction (List Act)) (store : KeyStore)
    (s : Session) : recorded (onStore i acct store) s = recorded acct ⟨store, s.world⟩ :=
  recorded_eq rfl

theorem atStore_accounts {α : Type} (i : Nat) {acct : StoreAction (List Act)} {a : StoreAction α}
    (h : Accounts acct a) : Accounts (atStore i acct) (atStore i a) := by
  rw [atStore_eq, atStore_eq]
  refine .bind (silent_storeAt i) fun store => ⟨fun s => ?_, fun s known => ?_⟩
  · rw [recorded_onStore]
    exact h.explains ⟨store, s.world⟩
  · rw [recorded_onStore]
    exact h.writesOwn ⟨store, s.world⟩ known

theorem readKeyFile_accounts (path : String) (fatal : Bool) (faults : KeyFile.Faults) :
    Accounts (KeyFile.ensureActs (.ofString path) faults) (readKeyFile path fatal faults) := by
  unfold readKeyFile
  split
  · exact KeyFile.ensureOrExit_accounts _ faults
  · exact KeyFile.ensure_accounts _ faults

theorem load_bind_accounts {α : Type} {i n : Nat} {faults : KeyFile.Faults} {f : Bytes → Work α}
    (hf : ∀ key, Accounts (loadActs i faults n) (f key)) :
    Accounts (loadActs i faults (n + 1)) (atStore i (KeyStore.load faults) >>= f) :=
  (atStore_accounts i (KeyStore.load_accounts faults)).followed hf

theorem silent_fresh (v : Value) : Silent (askStore.fresh v) :=
  (silent_newValue v).bind fun _ => .pure _

theorem askStore_accounts (i : Nat) (faults : KeyFile.Faults) (call : StoreCall) :
    Accounts (loadActs i faults call.loads) (askStore i faults call) := by
  cases call with
  | path => exact .of_silent ((silent_storeAt i).bind fun _ => .pure _)
  | isLoaded => exact .of_silent ((silent_storeAt i).bind fun _ => silent_fresh _)
  | load => exact load_bind_accounts fun _ => .of_silent (.pure _)
  | copy => exact load_bind_accounts fun _ => .of_silent (silent_fresh _)
  | scrub =>
      exact load_bind_accounts fun _ => load_bind_accounts fun _ => load_bind_accounts fun _ =>
        .of_silent (silent_fresh _)

theorem handlerOfStore_accounts (i : Nat) (faults : KeyFile.Faults) :
    Accounts (atStore i (KeyStore.acts faults)) (handlerOfStore i faults) := by
  refine (atStore_accounts i (KeyStore.handler_accounts _ faults)).then_silent fun h => ?_
  exact (silent_addCipher _).bind fun _ => silent_addHandler _

theorem forceLazy_accounts (i : Nat) (faults : KeyFile.Faults) :
    Accounts (lazyActs i faults) (forceLazy i faults) := by
  refine .bind (silent_entry _ _) fun l => ?_
  have hkept : ∀ built : Nat × Lazily Nat, Silent (do
      modify fun s => { s with lazies := s.lazies.set i { l with handler := built.2 } }
      return built.1 : Work Nat) :=
    fun _ => .bind (.modify fun _ => rfl) fun _ => .pure _
  unfold Lazily.get
  cases l.handler.built with
  | some h => exact .of_silent ((Leaves.pure _).bind hkept)
  | none =>
      unfold forceLazy.build
      cases l.store with
      | none => exact .of_silent (((silent_refuse _).bind fun _ => .pure _).bind hkept)
      | some store =>
          exact ((handlerOfStore_accounts store faults).then_silent fun _ => .pure _).then_silent
            hkept

/-! ## Callers at the same time -/

theorem lazyCrowd_accounts (lazies : List Nat) :
    Accounts (lazyCrowdActs lazies) (lazies.mapM fun i => (forceLazy i {}).observe) := by
  induction lazies with
  | nil => exact .of_silent (.pure _)
  | cons i rest ih =>
      rw [List.mapM_cons]
      exact (forceLazy_accounts i {}).observe.followed fun _ => ih.then_silent fun _ => .pure _

theorem concurrentLazies_accounts (lazies : List Nat) (callers : Nat) :
    Accounts (lazyCrowdActs (dealt lazies callers)) (concurrentLazies lazies callers) := by
  refine (lazyCrowd_accounts _).then_silent fun results => ?_
  exact (Leaves.mapM Work.silent_conclude results).bind fun _ => .pure _

theorem gather_keeps (stores : List Nat) (callers : Nat) (s : Session)
    (known : Nat → Option Bytes) : (gather stores callers s).Keeps known := by
  intro i c hc
  obtain ⟨store, -, rfl⟩ := List.mem_map.mp (List.mem_of_getElem? hc)
  trivial

theorem crowdAtStores_accounts (stores : List Nat) (callers : Nat) :
    Accounts (storeCrowdActs stores callers) (crowdAtStores stores callers) := by
  refine ⟨fun s => ?_, fun s known => Crowd.acts_writesOwn (gather_keeps stores callers s known) _⟩
  have hrun := (gather stores callers s).run_explains (Crowd.inTurn callers)
  have htrace : trace (lead (crowdAtStores stores callers) s).2 =
      trace ((gather stores callers s).run (Crowd.inTurn callers)).world := by
    rw [crowdAtStores, lead_bind, lead_get]
    dsimp only
    rw [lead_bind, lead_set]
    refine Leaves.mapM (fun result => ?_) _ _
    cases result with
    | ok key => exact .pure key
    | error a => exact .throw _
  rw [htrace]
  exact hrun

theorem concurrentStores_accounts (stores : List Nat) (callers : Nat) :
    Accounts (storeCrowdActs stores callers) (concurrentStores stores callers) :=
  (crowdAtStores_accounts stores callers).then_silent fun _ => .pure _

theorem concurrent_accounts (names : List String) (callers : Nat) :
    Accounts (concurrentActs names callers) (concurrent names callers) := by
  refine .bind .get fun s => ?_
  have hstores := Accounts.bind (.mapM silent_storeNamed names) fun stores =>
    concurrentStores_accounts stores callers
  have hlazies := Accounts.bind (.mapM silent_lazyNamed names) fun lazies =>
    concurrentLazies_accounts lazies callers
  generalize s.held? (names.headD "") = held
  cases held with
  | none => exact hstores
  | some held =>
      cases held with
      | lazy i => exact hlazies
      | _ => exact hstores

/-! ## Operations -/

theorem loadDocument_accounts (d : Document) : Accounts (documentActs d) (loadDocument d) := by
  unfold documentActs loadDocument
  cases d.content with
  | some content =>
      exact (drawless_writeDocument d.path content).accounts.inSession.then_silent fun _ =>
        (silent_load d.path).inSession
  | none => exact .of_silent ((Leaves.pure ()).bind fun _ => (silent_load d.path).inSession)

theorem viewDocument_accounts (d : Document) (u : HandlerUse) (queries : List Query) :
    Accounts (documentActs d) (viewDocument d u queries) := by
  refine (loadDocument_accounts d).then_silent fun source => ?_
  exact (silent_numberedHandler u).bind fun (i, h) => silent_answers i h _ queries

theorem silent_restoreAttribute (i : Nat) (argument : Term) :
    Silent (restoreAttribute i argument) := by
  refine (silent_handlerAt i).bind fun h => (silent_resolve argument).bind fun v => ?_
  have hrestore : ∀ passed, Silent (do
      replyPassed passed argument (← (Attribute.restore h v).inSession)) :=
    fun passed => (h.silent_restore v).task_inSession.bind fun _ => silent_replyPassed _ _ _
  exact .ite ((silent_requireCipher i).bind fun _ => hrestore _) (hrestore _)

theorem perform_accounts (op : Operation) : Accounts (operationActs op) (perform op) := by
  cases op with
  | importKey secret => exact .of_silent ((silent_importKey secret).bind fun _ => .pure _)
  | useCipher u c argument => exact askCipher_accounts u c argument
  | makeHandler u => exact .of_silent ((silent_numberedHandler u).bind fun _ => .pure _)
  | isMarked u argument =>
      exact .of_silent ((silent_numberedHandler u).bind fun _ =>
        (silent_resolve argument).bind fun _ => silent_replyValue _)
  | convert u c argument =>
      exact .bind (silent_chooseHandler u) fun i => convertBy_accounts i c argument
  | attempt u c argument =>
      exact .bind (silent_chooseHandler u) fun i =>
        (attemptBy_accounts i c argument).then_silent fun _ => .pure _
  | storeAttribute u argument =>
      exact .bind (silent_chooseHandler u) fun i => storeAttribute_accounts i argument
  | restoreAttribute u argument =>
      exact .of_silent ((silent_chooseHandler u).bind fun i => silent_restoreAttribute i argument)
  | decryptProperties u sources =>
      exact .of_silent ((silent_decryptProperties u sources).bind silent_replyValue)
  | viewProperties u sources queries =>
      exact .of_silent ((silent_viewProperties u sources queries).bind fun _ => .pure _)
  | loadDocument d => exact (loadDocument_accounts d).then_silent fun _ => silent_replyValue _
  | viewDocument d u queries =>
      exact (viewDocument_accounts d u queries).then_silent fun _ => .pure _
  | loadSettings environment =>
      exact .of_silent ((silent_loadSettings environment).inSession.bind fun _ => .pure _)
  | makeSettings fields => exact .of_silent ((silent_makeSettings fields).bind fun _ => .pure _)
  | makeFailure cls arguments =>
      exact .of_silent ((silent_makeFailure cls arguments).bind fun f =>
        (silent_showFailure f).bind fun _ => .pure _)
  | makeOutcome value failure =>
      exact .of_silent ((silent_makeOutcome value failure).bind fun o =>
        (silent_showOutcome o).bind fun _ => .pure _)
  | commandLine arguments environment seed =>
      exact (runCommandLine_accounts arguments environment seed).inSession.then_silent
        fun _ => .pure _
  | file call =>
      exact (drawless_performFileCall call).accounts.inSession.then_silent silent_replyFile
  | keyFile path fatal faults =>
      exact (readKeyFile_accounts path fatal faults).inSession.then_silent fun _ =>
        silent_replyValue _
  | makeStore path fatal => exact .of_silent ((silent_makeStore path fatal).bind fun _ => .pure _)
  | askStore store call faults =>
      exact .bind (silent_storeNamed store) fun i =>
        (askStore_accounts i faults call).then_silent fun _ => .pure _
  | sameLock a b => exact .of_silent ((silent_sameLock a b).bind fun _ => silent_replyValue _)
  | handlerOfStore store faults =>
      exact .bind (silent_storeNamed store) fun i =>
        (handlerOfStore_accounts i faults).then_silent fun j =>
          (silent_handlerAt j).bind fun _ => .pure _
  | makeLazy store => exact .of_silent ((silent_makeLazy store).bind fun _ => .pure _)
  | forceLazy name faults =>
      exact .bind (silent_lazyNamed name) fun i =>
        (forceLazy_accounts i faults).then_silent fun j =>
          (silent_handlerAt j).bind fun _ => .pure _
  | same a b => exact .of_silent ((silent_same a b).bind fun _ => silent_replyValue _)
  | concurrent names callers =>
      exact (concurrent_accounts names callers).then_silent fun _ => .pure _

end Session

end Strongbox
