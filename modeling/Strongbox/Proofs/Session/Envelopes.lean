import Strongbox.Proofs.Attempts
import Strongbox.Proofs.Base64
import Strongbox.Proofs.Session.Acts

/-! # The envelopes that a session hands out

The account of an operation has at most one encryption, at its end. If the plaintext has the wrong
type the operation is rejected for it, and otherwise whatever envelope the reply shows begins with
the segment that was read for that encryption. -/

namespace Strongbox

/-! ## What replies show -/

theorem Base64.encode_injective {x x' : Bytes} (h : encode x = encode x') : x = x' := by
  have hchars : encodeChars x = encodeChars x' := by
    simpa [encode] using congrArg String.toList h
  have hdecode := congrArg decode hchars
  rw [decode_encodeChars, decode_encodeChars] at hdecode
  exact Option.some.inj hdecode

theorem append_encode_injective {marker : String} {x x' : Bytes}
    (h : marker ++ Base64.encode x = marker ++ Base64.encode x') : x = x' := by
  have hlist := congrArg String.toList h
  rw [String.toList_append, String.toList_append] at hlist
  exact Base64.encode_injective (String.toList_inj.mp (List.append_cancel_left hlist))

theorem CommandLine.quoteLine_injective {title text text' : String}
    (h : quoteLine title text = quoteLine title text') : text = text' := by
  have hlist := congrArg String.toList h
  simp only [quoteLine, String.toList_append, List.append_assoc] at hlist
  have htext := List.append_cancel_left (List.append_cancel_left hlist)
  exact String.toList_inj.mp (List.append_cancel_right htext)

namespace EnvelopeForm

variable {form : EnvelopeForm} {x x' : Bytes}

theorem holding_injective (h : form.holding x = form.holding x') : x = x' := by
  cases form with
  | octets =>
      cases h
      rfl
  | text marker => exact append_encode_injective (Value.text.inj h)
  | printed front marker => exact append_encode_injective (Value.text.inj h)

/-- What ends in a line with an envelope. -/
def output (front marker : String) (x : Bytes) : String :=
  front ++ CommandLine.quoteLine "encrypted text" (marker ++ Base64.encode x) ++ "\n"

theorem output_injective {front marker : String}
    (h : output front marker x = output front marker x') : x = x' := by
  have hlist := congrArg String.toList h
  simp only [output, String.toList_append, List.append_assoc] at hlist
  have hline := List.append_cancel_right (List.append_cancel_left hlist)
  exact append_encode_injective (CommandLine.quoteLine_injective (String.toList_inj.mp hline))

/-- The reply hands over an envelope in this form. -/
def Shows (form : EnvelopeForm) (x : Bytes) : Reply → Prop
  | .value v => v = form.holding x
  | .outcome o => o = { value := form.holding x }
  | .ending e =>
    e.status = 0 ∧ ∃ front marker, form = printed front marker ∧ e.output = output front marker x
  | _ => False

theorem Shows.unique {r : Reply} (h : form.Shows x r) (h' : form.Shows x' r) : x = x' := by
  cases r with
  | value v => exact holding_injective (h.symm.trans h')
  | outcome o => exact holding_injective (congrArg Outcome.value (h.symm.trans h'))
  | ending e =>
      obtain ⟨-, front, marker, rfl, hx⟩ := h
      obtain ⟨-, front', marker', hform, hx'⟩ := h'
      cases hform
      exact output_injective (hx.symm.trans hx')
  | _ => cases h

end EnvelopeForm

/-- The operation came to a result, and this is that it failed. -/
def Reply.reportsFailure : Reply → Bool
  | outcome o => !o.isOk
  | ending e => e.status ≠ 0
  | _ => false

theorem EnvelopeForm.Shows.reportsFailure {form : EnvelopeForm} {x : Bytes} {r : Reply}
    (h : form.Shows x r) : r.reportsFailure = false := by
  cases r with
  | outcome o =>
      obtain rfl : o = { value := form.holding x } := h
      rfl
  | ending e => simp [Reply.reportsFailure, h.1]
  | _ => rfl

/-! ## What becomes of an encryption -/

/-- A value of the wrong type is rejected; and a reply hands over an envelope that begins with the
segment that was read, unless it reports a failure. -/
structure Sealing.Settles (s : Sealing) (e : Entropy) (result : Except Stop Reply) : Prop where
  rejected : s.form.plaintext? s.value = none → result = .error (.abort (.misuse s.rejection))
  accepted : ∀ r, result = .ok r → r.reportsFailure = true ∨
    ∃ x, s.form.Shows x r ∧ x.take Envelope.ivSize = (s.act e).octets

/-- There is no encryption among the acts. -/
def MakesOnly (acts : List Act) : Prop :=
  ∀ a ∈ acts, ∀ s, a.deed ≠ .sealing s

/-- The acts of an operation and its result. An encryption comes last and there is one at most, and
only replies that are let pass come without. -/
inductive Concludes (passes : Reply → Prop) : List Act → Except Stop Reply → Prop
  | without {acts : List Act} {result : Except Stop Reply} (makes : MakesOnly acts)
      (passed : ∀ r, result = .ok r → passes r) : Concludes passes acts result
  | sealing {front : List Act} {s : Sealing} {e : Entropy} {result : Except Stop Reply}
      (makes : MakesOnly front) (settles : s.Settles e result) :
      Concludes passes (front ++ [s.act e]) result

theorem makesOnly_nil : MakesOnly [] := by
  intro a ha
  cases ha

theorem makesOnly_append {acts acts' : List Act} (h : MakesOnly acts) (h' : MakesOnly acts') :
    MakesOnly (acts ++ acts') := by
  intro a ha
  rcases List.mem_append.mp ha with ha | ha
  · exact h a ha
  · exact h' a ha

theorem makesOnly_act (faults : KeyFile.Faults) (caller : Nat) (s : KeyFile.Stage) (w : World) :
    MakesOnly [KeyFile.act faults caller s w] := by
  intro a ha sealing hdeed
  obtain rfl := List.mem_singleton.mp ha
  cases hdeed

theorem makesOnly_acts (path : Path) (faults : KeyFile.Faults) (caller : Nat) (s : KeyFile.Stage)
    (w : World) : MakesOnly (KeyFile.acts path faults caller s w) := by
  fun_induction KeyFile.finish path faults s w with
  | case1 s w result hended =>
      rw [KeyFile.acts_of_ended hended]
      exact makesOnly_act faults caller s w
  | case2 s w s' hnext _ ih =>
      rw [KeyFile.acts_of_next hnext]
      exact makesOnly_append (makesOnly_act faults caller s w) ih

theorem Crowd.makesOnly_acts (crowd : Crowd) (turns : List Nat) : MakesOnly (crowd.acts turns) := by
  induction turns generalizing crowd with
  | nil => exact makesOnly_nil
  | cons i turns ih =>
      refine makesOnly_append ?_ (ih (crowd.turn i))
      unfold turnActs Caller.acts
      repeat' split
      · exact makesOnly_nil
      · exact makesOnly_nil
      · exact makesOnly_act _ i _ crowd.world
      · exact makesOnly_nil

/-! ## Accounts without an encryption -/

section

variable {ε σ α : Type}

/-- There is never an encryption on the account. -/
def Makes (acct : ExceptT ε (StateM σ) (List Act)) : Prop :=
  ∀ s, MakesOnly (recorded acct s)

namespace Makes

variable {acct : ExceptT ε (StateM σ) (List Act)}

theorem nil : Makes (pure [] : ExceptT ε (StateM σ) (List Act)) :=
  fun _ => makesOnly_nil

theorem bind {m : ExceptT ε (StateM σ) α} {accts : α → ExceptT ε (StateM σ) (List Act)}
    (h : ∀ a, Makes (accts a)) : Makes (m >>= accts) := by
  intro s
  rw [recorded_bind]
  obtain ⟨_ | a, s'⟩ := lead m s
  · exact makesOnly_nil
  · exact h a s'

theorem followed {m : ExceptT ε (StateM σ) α} {accts : α → ExceptT ε (StateM σ) (List Act)}
    (hacct : Makes acct) (h : ∀ a, Makes (accts a)) : Makes (followed acct m accts) := by
  intro s
  rw [recorded_followed]
  refine makesOnly_append (hacct s) ?_
  obtain ⟨_ | a, s'⟩ := lead m s
  · exact makesOnly_nil
  · exact h a s'

theorem inSession {acct : Action (List Act)} (h : Makes acct) : Makes acct.inSession := by
  intro s
  rw [recorded_inSession]
  exact h s.world

theorem filed : Makes (filed : Action (List Act)) := by
  intro w a ha s hdeed
  obtain rfl := List.mem_singleton.mp ha
  cases hdeed

theorem documentActs (d : Document) : Makes (Session.documentActs d) := by
  unfold Session.documentActs
  split
  · exact filed.inSession
  · exact nil

theorem ensureActs (path : Path) (faults : KeyFile.Faults) :
    Makes (KeyFile.ensureActs path faults) :=
  fun w => makesOnly_acts path faults 0 .parents w

theorem storeActs (faults : KeyFile.Faults) : Makes (KeyStore.acts faults) := by
  refine bind fun c => ?_
  dsimp only
  cases c.store.key with
  | some key => exact nil
  | none => exact fun c => ensureActs _ faults c.world

theorem atStore (i : Nat) {acct : StoreAction (List Act)} (h : Makes acct) :
    Makes (Session.atStore i acct) := by
  rw [Session.atStore_eq]
  refine bind fun store s => ?_
  rw [Session.recorded_onStore]
  exact h ⟨store, s.world⟩

theorem loadActs (i : Nat) (faults : KeyFile.Faults) (n : Nat) :
    Makes (Session.loadActs i faults n) := by
  induction n with
  | zero => exact nil
  | succ n ih => exact ((storeActs faults).atStore i).followed fun _ => ih

theorem lazyActs (i : Nat) (faults : KeyFile.Faults) : Makes (Session.lazyActs i faults) := by
  refine bind fun l => ?_
  split
  · exact (storeActs faults).atStore _
  · exact nil

theorem lazyCrowdActs (lazies : List Nat) : Makes (Session.lazyCrowdActs lazies) := by
  induction lazies with
  | nil => exact nil
  | cons i rest ih => exact (lazyActs i {}).followed fun _ => ih

theorem concurrentActs (names : List String) (callers : Nat) :
    Makes (Session.concurrentActs names callers) := by
  refine bind fun s => ?_
  split
  · exact bind fun lazies => lazyCrowdActs _
  · exact bind fun stores s => Crowd.makesOnly_acts _ _

end Makes

end

/-! ## Encryptions in a session -/

/-- From every state the account of some work and the reply that is made of its result fit. -/
def Answers {α : Type} (passes : Reply → Prop) (acct : Work (List Act)) (reply : α → Reply)
    (m : Work α) : Prop :=
  ∀ s, Concludes passes (recorded acct s) ((lead m s).1.map reply)

namespace Answers

variable {α β : Type} {passes : Reply → Prop} {acct : Work (List Act)} {reply : α → Reply}
  {m : Work α}

theorem of_makes (hacct : Makes acct)
    (hpasses : ∀ s a, (lead m s).1 = .ok a → passes (reply a)) : Answers passes acct reply m := by
  refine fun s => .without (hacct s) fun r hr => ?_
  cases hm : (lead m s).1 with
  | error e =>
      rw [hm] at hr
      cases hr
  | ok a =>
      rw [hm] at hr
      obtain rfl := Except.ok.inj hr
      exact hpasses s a hm

theorem bind {p : Work β} {accts : β → Work (List Act)} {f : β → Work α}
    (h : ∀ b, Answers passes (accts b) reply (f b)) :
    Answers passes (p >>= accts) reply (p >>= f) := by
  intro s
  rw [recorded_bind, lead_bind]
  obtain ⟨e | b, s'⟩ := lead p s
  · refine .without makesOnly_nil fun r hr => ?_
    cases hr
  · exact h b s'

theorem unnamed {m : Work Reply} (h : Answers passes acct id m) :
    Answers passes acct Prod.fst (do return Session.unnamed (← m)) := by
  intro s
  have hs := h s
  rw [bind_pure_comp, lead_map]
  generalize (lead m s).1 = result at hs ⊢
  cases result with
  | error e => exact hs
  | ok r => exact hs

end Answers

theorem lead_shown_holding (form : EnvelopeForm) (x : Bytes) (s : Session) :
    lead (Session.shown (form.holding x)) s = (.ok (form.holding x), s) := by
  cases form <;>
    simp [Session.shown, EnvelopeForm.holding, Value.ofBytes, Value.isData, Value.depth]

theorem lead_replyValue_holding (form : EnvelopeForm) (x : Bytes) (s : Session) :
    (lead (Session.replyValue (form.holding x)) s).1.map Prod.fst =
      .ok (.value (form.holding x)) := by
  rw [Session.replyValue, lead_bind, lead_shown_holding]
  rfl

namespace Sealing

variable {s : Sealing} {e : Entropy} {result : Except Stop Reply}

theorem envelope_ne_misuse {plaintext : Bytes} (h : s.form.plaintext? s.value = some plaintext)
    {m : Misuse} : s.envelope e ≠ .error (.misuse m) := by
  unfold envelope
  rw [h]
  dsimp only
  cases s.cipher.seal? (s.act e).octets plaintext with
  | ok x => nofun
  | error f =>
      intro hmisuse
      have hcause := Except.error.inj hmisuse
      dsimp only at hcause
      split at hcause
      · cases hcause
      · exact f.abort_ne_misuse m hcause

/-- What an encryption comes to settles it, if a rejection is passed on and the reply reports every
other failure or shows the envelope. -/
theorem settles
    (hrejected : ∀ m, s.envelope e = .error (.misuse m) → result = .error (.abort (.misuse m)))
    (herror : ∀ a r, s.envelope e = .error a → result = .ok r → r.reportsFailure = true)
    (hok : ∀ x r, s.envelope e = .ok x → result = .ok r → s.form.Shows x r) :
    s.Settles e result := by
  refine ⟨fun hnone => hrejected _ (envelope_of_rejected hnone), fun r hr => ?_⟩
  cases henvelope : s.envelope e with
  | error a => exact .inl (herror a r henvelope hr)
  | ok x => exact .inr ⟨x, hok x r henvelope hr, take_of_envelope_eq_ok henvelope⟩

theorem Describes.answers {t : Task Value} (ht : s.Describes t) {passes : Reply → Prop} :
    Answers passes s.account.inSession Prod.fst (t.inSession >>= Session.replyValue) := by
  intro st
  have hresult : (lead t.inSession st).1 =
      ((s.envelope (entropy st)).map s.form.holding).mapError .abort :=
    congrArg (Except.mapError Stop.abort) (ht.result st.world.ambient)
  refine .sealing makesOnly_nil (s := s) (e := entropy st) ?_
  rw [lead_bind]
  generalize lead t.inSession st = led at hresult
  obtain ⟨r, st'⟩ := led
  dsimp only at hresult
  subst hresult
  refine settles (fun m hm => ?_) (fun a r ha hr => ?_) fun x r hx hr => ?_
  · rw [hm]
    rfl
  · rw [ha] at hr
    cases hr
  · rw [hx] at hr
    cases (lead_replyValue_holding s.form x st').symm.trans hr
    rfl

theorem Describes.answers_attempt {t : Task Value} (ht : s.Describes t) {passes : Reply → Prop} :
    Answers passes s.account.inSession id ((Outcome.of t).inSession >>= Session.showOutcome) := by
  intro st
  have hresult : (lead (Outcome.of t).inSession st).1 =
      (Outcome.attempted ((s.envelope (entropy st)).map s.form.holding)).mapError .abort := by
    have hof : lead (Outcome.of t) st.world.ambient = _ := Outcome.perform_of t st.world.ambient
    rw [Task.inSession, lead_inSession, lead_inWorld, hof]
    exact congrArg (fun r => (Outcome.attempted r).mapError Stop.abort)
      (ht.result st.world.ambient)
  refine .sealing makesOnly_nil (s := s) (e := entropy st) ?_
  rw [lead_bind]
  generalize lead (Outcome.of t).inSession st = led at hresult
  obtain ⟨r, st'⟩ := led
  dsimp only at hresult
  subst hresult
  refine settles (fun m hm => ?_) (fun a r ha hr => ?_) fun x r hx hr => ?_
  · rw [hm]
    rfl
  · rw [ha] at hr
    cases a with
    | failure f =>
        cases hr
        rfl
    | _ => cases hr
  · rw [hx] at hr
    have hshown : lead (Session.showOutcome { value := s.form.holding x }) st' =
        (.ok (.outcome { value := s.form.holding x }), st') := by
      rw [Session.showOutcome, lead_bind, lead_shown_holding]
      rfl
    cases (congrArg (fun led => led.1.map id) hshown).symm.trans hr
    rfl

end Sealing

/-- Envelopes are made by these conversions. -/
def Conversion.encrypts : Conversion → Bool
  | encryptText | encryptBytes => true
  | decryptText | decryptBytes => false

theorem Conversion.form?_eq_none_iff {c : Conversion} {marker : String} :
    c.form? marker = none ↔ c.encrypts = false := by
  cases c <;> simp [form?, encrypts]

namespace Session

/-- Only decryption hands over what no encryption was recorded for. -/
theorem account_answers {α : Type} {c : Cipher} {marker : String} {conversion : Conversion}
    {v : Value} {reply : α → Reply} {m : Work α}
    (hsealing : ∀ form, conversion.form? marker = some form →
      Answers (fun _ => conversion.encrypts = false) (Sealing.account ⟨c, form, v⟩).inSession
        reply m) :
    Answers (fun _ => conversion.encrypts = false) (conversion.account c marker v).inSession
      reply m := by
  unfold Conversion.account
  cases hform : conversion.form? marker with
  | some form => exact hsealing form hform
  | none =>
      exact .of_makes (fun _ => makesOnly_nil) fun _ _ _ => Conversion.form?_eq_none_iff.mp hform

theorem convertBy_answers (i : Nat) (c : Conversion) (argument : Term) :
    Answers (fun _ => c.encrypts = false) (convertActs i c argument) Prod.fst
      (convertBy i c argument) := by
  refine .bind fun h => .bind fun v => ?_
  have hconvert : ∀ c : Conversion, Answers (fun _ => c.encrypts = false)
      (c.account h.cipher h.marker v).inSession Prod.fst
      (do replyValue (← (h.convert c v).inSession)) :=
    fun c => account_answers fun _ hform => (h.describes_convert hform v).answers
  -- What is passed through has not been encrypted.
  cases c with
  | encryptText => exact .bind fun _ => hconvert .encryptText
  | encryptBytes => exact .bind fun _ => hconvert .encryptBytes
  | decryptText =>
      refine .of_makes ?_ fun _ _ _ => rfl
      split
      · exact .bind fun _ => .nil
      · exact .nil
  | decryptBytes => exact .of_makes (.bind fun _ => .nil) fun _ _ _ => rfl

theorem attemptBy_answers (i : Nat) (c : Conversion) (argument : Term) :
    Answers (fun _ => c.encrypts = false) (convertActs i c argument) id
      (attemptBy i c argument) := by
  refine .bind fun h => .bind fun v => ?_
  have hattempt : Answers (fun _ => c.encrypts = false)
      (c.account h.cipher h.marker v).inSession id
      (do showOutcome (← (h.attempt c v).inSession)) :=
    account_answers fun _ hform => (h.describes_convert hform v).answers_attempt
  split
  · exact .bind fun _ => hattempt
  · exact hattempt

theorem askCipher_answers (u : CipherUse) (c : Conversion) (argument : Term) :
    Answers (fun _ => c.encrypts = false) (askCipherActs u c argument) Prod.fst
      (askCipher u c argument) := by
  refine .bind fun s => ?_
  cases s.handlerNamed? u.choice with
  | some i =>
      cases c with
      | encryptText => exact convertBy_answers i .encryptText argument
      | decryptText => exact convertBy_answers i .decryptText argument
      | encryptBytes =>
          refine .of_makes Makes.nil fun s a ha => ?_
          cases ha
      | decryptBytes => exact .of_makes Makes.nil fun _ _ _ => rfl
  | none =>
      refine .bind fun cipher => .bind fun v => account_answers fun form hform => ?_
      exact (cipher.describes_convert hform v).answers

theorem storeAttribute_answers (i : Nat) (argument : Term) :
    Answers (· = .value .null) (storeAttributeActs i argument) Prod.fst
      (storeAttribute i argument) := by
  refine .bind fun h => .bind fun v => ?_
  cases v with
  | null =>
      refine .of_makes Makes.nil fun s a ha => ?_
      cases ha
      rfl
  | _ => exact .bind fun _ => (Attribute.describes_store h (by nofun)).answers

end Session

/-! ## Commands -/

namespace CommandLine

/-- These commands encrypt. -/
def Command.encrypts : Command → Bool
  | encrypt _ | password _ => true
  | version | decrypt _ => false

/-- Whether arguments ask for an encryption. -/
def encrypts (arguments : List String) : Bool :=
  match read arguments with
  | .run c => c.encrypts
  | _ => false

variable {σ : Type} [ChoiceSource σ] {settings : Settings} {source : σ} {c : Command} {w : World}
  {t : Terminal}

theorem runCommand_of_ok
    (h : lead (execute settings source c) (blankTerminal w) = (.ok (), t)) :
    (runCommand settings source c w).1 =
      .ok ⟨0, false, t.output, logLines settings.logLevel t.world.ambient.log⟩ := by
  unfold lead blankTerminal at h
  unfold runCommand
  dsimp only at h ⊢
  rw [h]

theorem runCommand_of_error {a : Abort} {e : Ending}
    (h : lead (execute settings source c) (blankTerminal w) = (.error a, t))
    (he : (runCommand settings source c w).1 = .ok e) : e.status = 1 := by
  unfold lead blankTerminal at h
  unfold runCommand at he
  dsimp only at h he
  rw [h] at he
  cases a with
  | exit f =>
      cases he
      rfl
  | _ =>
      dsimp only at he
      split at he
      · cases he
        rfl
      · cases he

/-- The command line reports every abort as a failure or passes it on. -/
theorem ending_of_ok {r : Reply}
    (hr : ((runCommand settings source c w).1.map Reply.ending).mapError Stop.abort = .ok r) :
    ∃ e, (runCommand settings source c w).1 = .ok e ∧ r = .ending e := by
  cases hrun : (runCommand settings source c w).1 with
  | error a =>
      rw [hrun] at hr
      cases hr
  | ok e =>
      rw [hrun] at hr
      cases hr
      exact ⟨e, rfl, rfl⟩

theorem lead_showEncrypted (h : Handler) (front text : String) (t : Terminal) :
    let s : Sealing := ⟨h.cipher, .printed front h.marker, .text text⟩
    (lead (showEncrypted h text) t).1 = (s.envelope (entropy t)).map (fun _ => ()) ∧
      ∀ x, s.envelope (entropy t) = .ok x → (lead (showEncrypted h text) t).2.output =
        EnvelopeForm.output (t.output ++ quoteLine "text" text ++ "\n") h.marker x := by
  intro s
  have hresult := h.encryptText_result front text t.world.ambient
  have hlead : lead (showEncrypted h text) t =
      match lead (h.encryptText (.text text)) t.world.ambient with
      | (.ok encrypted, a) => (.ok (),
          { world := { t.world with ambient := a }
            output := t.output ++ quoteLine "text" text ++ "\n" ++
              quoteLine "encrypted text" encrypted ++ "\n" })
      | (.error e, a) => (.error e,
          { world := { t.world with ambient := a }
            output := t.output ++ quoteLine "text" text ++ "\n" }) := by
    rw [showEncrypted, print, lead_bind, lead_modify]
    dsimp only
    rw [lead_bind, lead_perform, lead_inWorld]
    dsimp only
    obtain ⟨_ | encrypted, a⟩ := lead (h.encryptText (.text text)) t.world.ambient <;> rfl
  rw [hlead]
  generalize lead (h.encryptText (.text text)) t.world.ambient = led at hresult
  obtain ⟨r, a⟩ := led
  change r = (s.envelope (entropy t)).map _ at hresult
  cases henvelope : s.envelope (entropy t) with
  | error e =>
      rw [henvelope] at hresult
      subst hresult
      exact ⟨rfl, nofun⟩
  | ok x =>
      rw [henvelope] at hresult
      subst hresult
      refine ⟨rfl, fun x' hx' => ?_⟩
      cases hx'
      rfl

theorem showEncrypted_settles {h : Handler} {front text : String}
    (hfront : front = t.output ++ quoteLine "text" text ++ "\n")
    (hexecute : lead (execute settings source c) (blankTerminal w) =
      lead (showEncrypted h text) t) :
    (Sealing.mk h.cipher (.printed front h.marker) (.text text)).Settles (entropy t)
      (((runCommand settings source c w).1.map Reply.ending).mapError Stop.abort) := by
  obtain ⟨hresult, houtput⟩ := lead_showEncrypted h front text t
  rw [← hexecute] at hresult houtput
  generalize hled : lead (execute settings source c) (blankTerminal w) = led at hresult houtput
  obtain ⟨result, t'⟩ := led
  dsimp only at hresult houtput
  refine Sealing.settles (fun m hm => ?_) (fun a r ha hr => ?_) fun x r hx hr => ?_
  · exact absurd hm (Sealing.envelope_ne_misuse rfl)
  · obtain ⟨e, he, rfl⟩ := ending_of_ok hr
    rw [ha] at hresult
    subst hresult
    simp [Reply.reportsFailure, runCommand_of_error hled he]
  · obtain ⟨e, he, rfl⟩ := ending_of_ok hr
    rw [hx] at hresult
    subst hresult
    obtain rfl := Except.ok.inj ((runCommand_of_ok hled).symm.trans he)
    refine ⟨rfl, front, h.marker, rfl, ?_⟩
    rw [hfront]
    exact houtput x hx

/-- Only a run that ends with a failure leaves out the encryption that it was asked for. -/
def Passes (encrypts : Bool) (r : Reply) : Prop :=
  encrypts = true → ∀ e, r = .ending e → e.status ≠ 0

theorem passes_of_error {a : Abort} {encrypts : Bool}
    (h : lead (execute settings source c) (blankTerminal w) = (.error a, t)) (r : Reply)
    (hr : ((runCommand settings source c w).1.map Reply.ending).mapError Stop.abort = .ok r) :
    Passes encrypts r := by
  intro _ e he
  obtain ⟨e', he', rfl⟩ := ending_of_ok hr
  cases he
  simp [runCommand_of_error h he']

theorem makesOnly_opening (settings : Settings) (t : Terminal) :
    MakesOnly (recorded (perform (openingActs settings)) t) := by
  change MakesOnly (recorded (openingActs settings) t.world)
  exact Makes.bind (fun store w => Makes.storeActs {} ⟨store, w⟩) t.world

theorem announcement_line : "random password" ++ "\n" = "random password\n" := by
  decide

theorem runCommand_concludes (settings : Settings) (source : σ) (c : Command) (w : World) :
    Concludes (Passes c.encrypts) (recorded (executeActs settings source c) (blankTerminal w))
      (((runCommand settings source c w).1.map Reply.ending).mapError Stop.abort) := by
  have hopening := makesOnly_opening settings (blankTerminal w)
  have hexecute : lead (execute settings source c) (blankTerminal w) = _ :=
    lead_bind (perform (openHandler settings)) _ (blankTerminal w)
  have houtput : (lead (perform (openHandler settings)) (blankTerminal w)).2.output = "" := rfl
  rw [executeActs, recorded_followed]
  generalize lead (perform (openHandler settings)) (blankTerminal w) = led at hexecute houtput
  obtain ⟨a | h, t⟩ := led
  · dsimp only at hexecute ⊢
    rw [List.append_nil]
    exact .without hopening (passes_of_error hexecute)
  · dsimp only at hexecute houtput ⊢
    cases c with
    | version => exact .without (makesOnly_append hopening makesOnly_nil) fun _ _ => nofun
    | decrypt encrypted => exact .without (makesOnly_append hopening makesOnly_nil) fun _ _ => nofun
    | encrypt text =>
        refine .sealing hopening (showEncrypted_settles ?_ hexecute)
        rw [houtput, String.empty_append]
    | password length =>
        unfold sealingActs plaintext?
        dsimp only at hexecute ⊢
        generalize (Password.generate Password.standardAlphabet.toList _ source).1 = generated
          at hexecute
        cases generated with
        | error m =>
            exact .without (makesOnly_append hopening makesOnly_nil) (passes_of_error hexecute)
        | ok password =>
            have hprinted : lead (execute settings source (.password length)) (blankTerminal w) =
                lead (showEncrypted h password)
                  { t with output := t.output ++ "random password" ++ "\n" } := hexecute
            have hsettles := showEncrypted_settles rfl hprinted
            rw [houtput, String.empty_append, announcement_line] at hsettles
            exact .sealing hopening hsettles

theorem run_concludes (arguments : List String) (environment : String → Option String) (source : σ)
    (w : World) :
    Concludes (Passes (encrypts arguments)) (runActs arguments environment source w)
      (((run arguments environment source w).1.map Reply.ending).mapError Stop.abort) := by
  unfold run runActs encrypts
  cases read arguments with
  | run c =>
      cases hsettings : Settings.ofVariables environment with
      | error errors =>
          cases c with
          | version => exact .without makesOnly_nil fun _ _ => nofun
          | _ =>
              refine .without makesOnly_nil fun r hr _ e he => ?_
              cases hr
              cases he
              exact Nat.one_ne_zero
      | ok settings =>
          cases c with
          | version => exact .without makesOnly_nil fun _ _ => nofun
          | _ => exact runCommand_concludes settings source _ w
  | _ => exact .without makesOnly_nil fun _ _ => nofun

end CommandLine

/-! ## Operations -/

/-- What replies an operation may come to without an encryption. -/
def Operation.Passes : Operation → Reply → Prop
  | useCipher _ c _, _ | convert _ c _, _ | attempt _ c _, _ => c.encrypts = false
  | storeAttribute _ _, r => r = .value .null
  | commandLine arguments _ _, r => CommandLine.Passes (CommandLine.encrypts arguments) r
  | _, _ => True

namespace Session

theorem runCommandLine_answers (arguments : List String) (environment : Environment) (seed : Int) :
    Answers (CommandLine.Passes (CommandLine.encrypts arguments))
      (commandLineActs arguments environment seed).inSession id
      (runCommandLine arguments environment seed).inSession := by
  intro s
  rw [recorded_inSession, lead_inSession, commandLineActs, runCommandLine, recorded_bind, lead_bind]
  obtain ⟨a | given, w⟩ := lead (setUp environment) s.world
  · refine .without makesOnly_nil fun r hr => ?_
    cases hr
  · rw [Except.map_id]
    exact CommandLine.run_concludes arguments given (Twister.ofSeed seed.natAbs) w

theorem perform_answers (op : Operation) :
    Answers op.Passes (operationActs op) Prod.fst (perform op) := by
  cases op with
  | useCipher u c argument => exact askCipher_answers u c argument
  | convert u c argument => exact .bind fun i => convertBy_answers i c argument
  | attempt u c argument => exact .bind fun i => (attemptBy_answers i c argument).unnamed
  | storeAttribute u argument => exact .bind fun i => storeAttribute_answers i argument
  | commandLine arguments environment seed =>
      exact (runCommandLine_answers arguments environment seed).unnamed
  | loadDocument d => exact .of_makes (.documentActs d) fun _ _ _ => trivial
  | viewDocument d u queries => exact .of_makes (.documentActs d) fun _ _ _ => trivial
  | file call => exact .of_makes Makes.filed.inSession fun _ _ _ => trivial
  | keyFile path fatal faults =>
      exact .of_makes (Makes.ensureActs _ faults).inSession fun _ _ _ => trivial
  | askStore store call faults =>
      exact .of_makes (.bind fun i => .loadActs i faults _) fun _ _ _ => trivial
  | handlerOfStore store faults =>
      exact .of_makes (.bind fun i => (Makes.storeActs faults).atStore i) fun _ _ _ => trivial
  | forceLazy name faults =>
      exact .of_makes (.bind fun i => .lazyActs i faults) fun _ _ _ => trivial
  | concurrent names callers =>
      exact .of_makes (.concurrentActs names callers) fun _ _ _ => trivial
  | _ => exact .of_makes .nil fun _ _ _ => trivial

end Session

end Strongbox
