import Strongbox.Proofs.Session.Envelopes

/-! # No random octet is used twice

The accounts of the steps of a session, one after the other, are all that is read of the random
source: consecutive segments, one for each encryption of a value of the right type and one for each
key file that is to be made. A key file holds the segment of its own making, and an envelope begins
with that of its own encryption, so as long as the vectors differ that are drawn, no two envelopes
share one. -/

namespace Strongbox

/-- The vector of an encryption that gets as far as that. -/
def Act.vector? (a : Act) : Option Bytes :=
  match a.deed with
  | .sealing _ => a.deed.drawn?.map fun _ => a.octets
  | .making _ _ _ | .filing => none

/-- An act starts where those before it have stopped. -/
theorem Follows.start_eq {e e' : Entropy} {front back : List Act} {a : Act}
    (h : Follows e (front ++ a :: back) e') :
    a.start = e.position + totalSize front := by
  induction front generalizing e with
  | nil => exact congrArg Entropy.position h.1
  | cons b front ih =>
      rw [ih h.2, b.left_position, Act.stop, Act.start, h.1, totalSize, Nat.add_assoc]

namespace Session

/-! ## Steps -/

/-- What a step is accounted for. -/
def acts (session : Session) (s : Step) : List Act :=
  recorded (operationActs s.operation) session.clearLog

variable (session : Session) (s : Step)

/-- A name is given whatever it stood for. -/
theorem lead_keep (name : Option String) (held : Option Held) (st : Session) :
    lead (keep name held) st = (.ok (), (lead (keep name held) st).2) := by
  refine Prod.ext ?_ rfl
  unfold keep
  split <;> rfl

theorem lead_work (st : Session) :
    (lead (work s) st).1 = (lead (perform s.operation) st).1.map Prod.fst ∧
      trace (lead (work s) st).2 = trace (lead (perform s.operation) st).2 := by
  rw [work, lead_bind]
  obtain ⟨e | ⟨r, held⟩, st'⟩ := lead (perform s.operation) st
  · exact ⟨rfl, rfl⟩
  · dsimp only
    rw [lead_bind, lead_keep]
    exact ⟨rfl, silent_keep s.name held st'⟩

theorem step_explains :
    Explains (trace session) (session.acts s) (trace (session.step s).2) := by
  have hexplains := (perform_accounts s.operation).explains session.clearLog
  rw [← (lead_work s session.clearLog).2] at hexplains
  exact hexplains

theorem step_writesOwn (known : Nat → Option Bytes) : WritesOwn known (session.acts s) :=
  (perform_accounts s.operation).writesOwn session.clearLog known

theorem step_concludes :
    Concludes s.operation.Passes (session.acts s) (session.step s).1.result := by
  have hconcludes := perform_answers s.operation session.clearLog
  rw [← (lead_work s session.clearLog).1] at hconcludes
  exact hconcludes

theorem step_drawn : (session.step s).1.drawn = totalSize (session.acts s) := by
  have hposition := (session.step_explains s).follows.position_eq
  change (trace (session.step s).2).entropy.position - (trace session).entropy.position = _
  rw [hposition, Nat.add_sub_cancel_left]

/-! ## Runs -/

/-- A step of a session and the state that it is taken from. -/
structure Episode where
  before : Session
  step : Step

namespace Episode

variable (x : Episode)

def acts : List Act :=
  x.before.acts x.step

def report : Report :=
  (x.before.step x.step).1

def after : Session :=
  (x.before.step x.step).2

/-- The reply of the step hands over an envelope. -/
def HandsOver (envelope : Bytes) : Prop :=
  ∃ a ∈ x.acts, ∃ s r, a.deed = .sealing s ∧ x.report.result = .ok r ∧ s.form.Shows envelope r

theorem concludes : Concludes x.step.operation.Passes x.acts x.report.result :=
  x.before.step_concludes x.step

/-- What is in files after the step was there before or has its origin in the step. -/
theorem origin {l : Location} {content : Bytes}
    (h : (files x.after).contentAt l = some content) :
    (files x.before).contentAt l = some content ∨ Origin x.acts l content :=
  (x.before.step_explains x.step).puts.origin (x.before.step_writesOwn x.step _) h

end Episode

def history : List Step → Session → List Episode
  | [], _ => []
  | s :: rest, session => ⟨session, s⟩ :: history rest (session.step s).2

/-- All that the steps of a session are accounted for. -/
def accounted (steps : List Step) (session : Session) : List Act :=
  (history steps session).flatMap Episode.acts

variable {session} {steps : List Step}

theorem map_report_history (steps : List Step) (session : Session) :
    (history steps session).map Episode.report = (run steps session).1 := by
  induction steps generalizing session with
  | nil => rfl
  | cons s rest ih => exact congrArg (List.cons _) (ih (session.step s).2)

theorem run_explains (steps : List Step) (session : Session) :
    Explains (trace session) (accounted steps session) (trace (run steps session).2) := by
  induction steps generalizing session with
  | nil => exact .nil (trace session)
  | cons s rest ih => exact (session.step_explains s).append (ih (session.step s).2)

theorem accounted_writesOwn (steps : List Step) (session : Session)
    (known : Nat → Option Bytes) : WritesOwn known (accounted steps session) := by
  induction steps generalizing session known with
  | nil => trivial
  | cons s rest ih =>
      exact writesOwn_append.mpr ⟨session.step_writesOwn s known, ih (session.step s).2 _⟩

theorem vector?_act {s : Sealing} {plaintext : Bytes} (e : Entropy)
    (h : s.form.plaintext? s.value = some plaintext) :
    (s.act e).vector? = some (s.act e).octets :=
  congrArg (Option.map fun _ => (s.act e).octets) (Sealing.drawn?_eq_some h)

/-- An envelope begins with the vector of an encryption of its own step. -/
theorem Episode.HandsOver.vector {x : Episode} {envelope : Bytes} (h : x.HandsOver envelope) :
    envelope.take Envelope.ivSize ∈ x.acts.filterMap Act.vector? := by
  have hconcludes := x.concludes
  obtain ⟨a, ha, s, r, hdeed, hresult, hshows⟩ := h
  generalize x.acts = acts at ha hconcludes ⊢
  rw [hresult] at hconcludes
  cases hconcludes with
  | without makes _ => exact absurd hdeed (makes a ha s)
  | @sealing front s' e _ makes settles =>
      rcases List.mem_append.mp ha with ha' | ha'
      · exact absurd hdeed (makes a ha' s)
      · obtain rfl := List.mem_singleton.mp ha'
        obtain rfl := Deed.sealing.inj hdeed
        cases hplaintext : s'.form.plaintext? s'.value with
        | none => cases settles.rejected hplaintext
        | some plaintext =>
            have htake : envelope.take Envelope.ivSize = (s'.act e).octets := by
              rcases settles.accepted r rfl with hfailure | ⟨envelope', hshows', htake⟩
              · rw [hshows.reportsFailure] at hfailure
                cases hfailure
              · rwa [hshows.unique hshows']
            rw [htake]
            exact List.mem_filterMap.mpr ⟨_, ha, vector?_act e hplaintext⟩

/-- What the steps of a session do with the random source. -/
structure ReadsOnce (steps : List Step) (session : Session) : Prop where
  reports : (history steps session).map Episode.report = (run steps session).1
  /-- The acts find the source one after the other as the one before has left it. -/
  follows : Follows (entropy session) (accounted steps session) (entropy (run steps session).2)
  stream : (entropy (run steps session).2).stream = (entropy session).stream
  consecutive : ∀ front a back, accounted steps session = front ++ a :: back →
    a.start = (entropy session).position + totalSize front
  disjoint : (accounted steps session).Pairwise fun a b => a.stop ≤ b.start
  octets : ∀ a ∈ accounted steps session,
    a.octets = (entropy session).segment a.start a.size
  /-- Nothing else draws. -/
  draws : (entropy (run steps session).2).draws =
    ((accounted steps session).filterMap fun a => a.deed.drawn?).reverse ++
      (entropy session).draws
  drawn : ∀ x ∈ history steps session, x.report.drawn = totalSize x.acts
  /-- An envelope begins with the segment of its own encryption. -/
  concludes : ∀ x ∈ history steps session,
    Concludes x.step.operation.Passes x.acts x.report.result
  /-- A key in a file is the segment of its own draw, or as much of it as could be written. -/
  origins : ∀ x ∈ history steps session, ∀ l content,
    (files x.after).contentAt l = some content →
      (files x.before).contentAt l = some content ∨ Origin x.acts l content
  /-- A key that is written is the segment that its own caller drew last. -/
  writesOwn : WritesOwn (fun _ => none) (accounted steps session)
  fresh : ((accounted steps session).filterMap Act.vector?).Nodup →
    (history steps session).Pairwise fun x y => ∀ e e', x.HandsOver e → y.HandsOver e' →
      e.take Envelope.ivSize ≠ e'.take Envelope.ivSize

/-- Whatever is done in a session, and whatever fails in it, no random octet is used twice; and as
long as the vectors differ that are drawn, those of the envelopes differ that it hands out. -/
theorem run_readsOnce (steps : List Step) (session : Session) : ReadsOnce steps session := by
  have hfollows := (run_explains steps session).follows
  refine ⟨map_report_history steps session, hfollows, hfollows.stream_eq, ?_, hfollows.pairwise,
    fun a => hfollows.octets_eq, hfollows.draws_eq, fun x _ => x.before.step_drawn x.step,
    fun x _ => x.concludes, fun x _ l content => x.origin,
    accounted_writesOwn steps session _, ?_⟩
  · intro front a back hsplit
    rw [hsplit] at hfollows
    exact hfollows.start_eq
  · intro hnodup
    rw [accounted, List.filterMap_flatMap] at hnodup
    refine (List.pairwise_flatMap.mp hnodup).2.imp ?_
    intro x y hxy e e' he he'
    exact hxy _ he.vector _ he'.vector

/-- Not every text that is to be encrypted has a vector drawn for it, nor every key file that is to
be made a key: surrogates keep the first from being encoded, and a source that refuses gives no
octets for the second. -/
theorem run_draws_nothing :
    let half : Value := .brokenText ⟨[.surrogate 0], by decide⟩
    let encrypt : Step := ⟨.useCipher ⟨.zeroKey, none⟩ .encryptText (.literal half), none⟩
    let make : Step := ⟨.keyFile "key" false { entropy := some { code := .inputOutput } }, none⟩
    let session := start [] (fun _ => 0) []
    let ending (r : Report) : Option (Misuse ⊕ FailureClass) :=
      match r.result with
      | .error (.abort (.misuse m)) => some (.inl m)
      | .error (.abort (.failure f)) => some (.inr f.cls)
      | _ => none
    half.typeName = "str" ∧
      (run [encrypt, make] session).1.map Report.drawn = [0, 0] ∧
      (run [encrypt, make] session).1.map ending =
        [some (.inl .unencodable), some (.inr .keyStore)] := by
  decide +kernel

/-- A vector is drawn even where the primitive then fails, and a key even where its file cannot be
created, but what is no text draws nothing. -/
example :
    let use fault argument : Step :=
      ⟨.useCipher ⟨.zeroKey, fault⟩ .encryptText (.literal argument), none⟩
    let steps :=
      [use none (.text "a"), use none .null, use (some ⟨.foreign, "IOError"⟩) (.text "b"),
        ⟨.keyFile "key" false { create := some { code := .noSpace, file := none } }, none⟩]
    (accounted steps (start [] (fun _ => 0) [])).filterMap
      (fun a => a.deed.drawn?.map fun size => (a.start, size)) =
      [(0, 12), (12, 12), (24, 32)] := by
  decide +kernel

end Session

end Strongbox
