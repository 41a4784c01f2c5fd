import Strongbox.Handler
import Strongbox.Proofs.ByteEnvelope

/-! # Attempts

An attempt at a conversion leaves the state that the conversion leaves, and hands over its result or
the library's own failure that ended it. All else passes through, and nothing else is left to pass
through once the argument has the right type and the primitive fails as it may. -/

namespace Strongbox

/-! ## What is handed over -/

namespace Outcome

/-- The outcome of a call that returned this value. -/
structure HoldsValue (o : Outcome) (v : Value) : Prop where
  isOk : o.isOk = true
  value : o.value = v
  kind : o.kind = none
  unwrap : o.unwrap = .ok v

/-- The outcome of a call that failed with this failure; to unwrap it is to fail with it again. -/
structure HoldsFailure (o : Outcome) (f : Failure) : Prop where
  isOk : o.isOk = false
  value : o.value = .null
  kind : o.kind = some f.kind
  unwrap : o.unwrap = .error f

theorem holdsValue (v : Value) : HoldsValue { value := v } v :=
  ⟨rfl, rfl, rfl, rfl⟩

theorem holdsFailure (f : Failure) : HoldsFailure { value := .null, failure := some f } f :=
  ⟨rfl, rfl, rfl, rfl⟩

/-- The result of an attempt, by that of the task. -/
def attempted : Except Abort Value → Except Abort Outcome
  | .ok v => .ok { value := v }
  | .error (.failure f) => .ok { value := .null, failure := some f }
  | .error a => .error a

theorem perform_of (t : Task Value) (a : Ambient) :
    perform (Outcome.of t) a = (attempted (perform t a).1, (perform t a).2) := by
  rw [Outcome.of, perform_tryCatch, bind_pure_comp, perform_map]
  obtain ⟨e | v, a'⟩ := perform t a
  · cases e <;> rfl
  · rfl

variable {r : Except Abort Value} {o : Outcome}

theorem exists_holdsValue_iff {v : Value} :
    (∃ o, attempted r = .ok o ∧ o.HoldsValue v) ↔ r = .ok v := by
  constructor
  · rintro ⟨o, ho, hv⟩
    cases r with
    | ok w =>
        obtain rfl := Except.ok.inj ho
        exact congrArg Except.ok hv.value
    | error e =>
        cases e with
        | failure f =>
            obtain rfl := Except.ok.inj ho
            cases hv.isOk
        | _ => cases ho
  · rintro rfl
    exact ⟨_, rfl, holdsValue v⟩

theorem exists_holdsFailure_iff {f : Failure} :
    (∃ o, attempted r = .ok o ∧ o.HoldsFailure f) ↔ r = .error (.failure f) := by
  constructor
  · rintro ⟨o, ho, hf⟩
    cases r with
    | ok w =>
        obtain rfl := Except.ok.inj ho
        cases hf.isOk
    | error e =>
        cases e with
        | failure g =>
            obtain rfl := Except.ok.inj ho
            obtain rfl := Except.error.inj hf.unwrap
            rfl
        | _ => cases ho
  · rintro rfl
    exact ⟨_, rfl, holdsFailure f⟩

/-- What is not the library's own failure passes through, and only that does. -/
theorem attempted_eq_error_iff {e : Abort} :
    attempted r = .error e ↔ r = .error e ∧ ∀ f, e ≠ .failure f := by
  constructor
  · intro h
    cases r with
    | ok v => cases h
    | error e' =>
        cases e' with
        | failure f => cases h
        | _ =>
            obtain rfl := Except.error.inj h
            exact ⟨rfl, nofun⟩
  · rintro ⟨rfl, hne⟩
    cases e with
    | failure f => exact absurd rfl (hne f)
    | _ => rfl

end Outcome

/-! ## Tasks that end in failures of some kinds only -/

namespace Task

variable {α β : Type} {kinds : List FailureKind} {t : Task α} {f : α → Task β}

/-- Wherever it is performed, the task comes to a result or to a failure of one of these kinds. -/
def Confined (kinds : List FailureKind) (t : Task α) : Prop :=
  ∀ a, (∃ x, (perform t a).1 = .ok x) ∨
    ∃ g : Failure, (perform t a).1 = .error (.failure g) ∧ g.kind ∈ kinds

theorem confined_pure (x : α) : Confined kinds (pure x : Task α) :=
  fun _ => .inl ⟨x, rfl⟩

theorem confined_fail {g : Failure} (hg : g.kind ∈ kinds) : Confined kinds (fail g : Task α) :=
  fun _ => .inr ⟨g, rfl, hg⟩

theorem confined_log (level : Level) (message : String) : Confined kinds (log level message) :=
  fun _ => .inl ⟨(), rfl⟩

theorem confined_draw (size : Nat) : Confined kinds (draw size) :=
  fun a => .inl ⟨(a.entropy.draw size).1, rfl⟩

theorem Confined.bind (ht : t.Confined kinds) (hf : ∀ x, (f x).Confined kinds) :
    (t >>= f).Confined kinds := by
  intro a
  rw [perform_bind]
  have hfirst := ht a
  generalize perform t a = led at hfirst
  obtain ⟨r, a'⟩ := led
  rcases hfirst with ⟨x, hx⟩ | ⟨g, hg, hkind⟩
  · obtain rfl : r = .ok x := hx
    exact hf x a'
  · obtain rfl : r = .error (.failure g) := hg
    exact .inr ⟨g, rfl, hkind⟩

/-- Such a task never raises when it is attempted. -/
theorem Confined.attempt {t : Task Value} (ht : t.Confined kinds) (a : Ambient) :
    ∃ o, (perform (Outcome.of t) a).1 = .ok o ∧ ∀ k, o.kind = some k → k ∈ kinds := by
  rw [Outcome.perform_of]
  rcases ht a with ⟨v, hv⟩ | ⟨g, hg, hkind⟩
  · rw [hv]
    exact ⟨_, rfl, nofun⟩
  · rw [hg]
    refine ⟨_, rfl, ?_⟩
    rintro _ ⟨⟩
    exact hkind

end Task

/-! ## Arguments and faults that conversions are made for -/

namespace Conversion

/-- Text for text, octets for octets; what is decrypted may also be absent, and only what is
encrypted must do without surrogates. -/
inductive Takes : Conversion → Value → Prop
  | plainText (s : String) : Takes encryptText (.text s)
  | markedText (s : String) : Takes decryptText (.text s)
  | markedBroken (t : BrokenText) : Takes decryptText (.brokenText t)
  | absent : Takes decryptText .null
  | octets (kind : ByteKind) (bs : Bytes) : Takes encryptBytes (.bytes kind bs)
  | envelope (kind : ByteKind) (bs : Bytes) : Takes decryptBytes (.bytes kind bs)

/-- How the primitive may fail: on arguments that it does not take, and on the way back also on a
tag that does not fit. -/
def Expects : Conversion → FaultNature → Prop
  | encryptText, n | encryptBytes, n => n = .wrongType ∨ n.isWrongValue ∨ n = .overflow
  | decryptText, n | decryptBytes, n => n = .badTag ∨ n.isWrongValue

/-- The kinds of failure that a conversion can have. -/
def failureKinds : Conversion → List FailureKind
  | encryptText | encryptBytes => [.encryptionFailed]
  | decryptText | decryptBytes => [.payloadTooShort, .decryptionFailed]

end Conversion

namespace Cipher

variable {c : Cipher}

theorem confined_encrypt (hc : ∀ f, c.fault = some f → Conversion.encryptBytes.Expects f.nature)
    (kind : ByteKind) (plaintext : Bytes) :
    (c.encrypt (.bytes kind plaintext)).Confined [.encryptionFailed] := by
  refine (Task.confined_draw _).bind fun iv => ?_
  cases hseal : c.seal? iv plaintext with
  | ok envelope => exact Task.confined_pure envelope
  | error f =>
      have hfails : f.failsEncryption = true := by
        obtain rfl := seal?_eq_error hseal
        cases hfault : c.fault with
        | none => rfl
        | some g => simpa [Fault.failsEncryption, Conversion.Expects, or_assoc] using hc g hfault
      dsimp only
      rw [if_pos hfails]
      exact (Task.confined_log _ _).bind fun _ => Task.confined_fail (List.mem_singleton.mpr rfl)

/-- Octets encode every text without surrogates. -/
theorem confined_encryptText
    (hc : ∀ f, c.fault = some f → Conversion.encryptText.Expects f.nature) (s : String) :
    (c.encryptText (.text s)).Confined [.encryptionFailed] :=
  (confined_encrypt hc _ _).bind fun _ => Task.confined_pure _

theorem confined_decryptBytes
    (hc : ∀ f, c.fault = some f → Conversion.decryptBytes.Expects f.nature) (envelope : Bytes) :
    (c.decryptBytes envelope).Confined [.payloadTooShort, .decryptionFailed] := by
  unfold decryptBytes
  cases hunseal : c.unseal? envelope with
  | ok plaintext => exact Task.confined_pure plaintext
  | error f =>
      have hfails : f.failsDecryption = true := by
        obtain rfl := unseal?_eq_error hunseal
        cases hfault : c.fault with
        | none => rfl
        | some g => simpa [Fault.failsDecryption, Conversion.Expects] using hc g hfault
      dsimp only
      rw [if_pos hfails]
      exact (Task.confined_log _ _).bind fun _ => Task.confined_fail (by decide)

theorem confined_decrypt (hc : ∀ f, c.fault = some f → Conversion.decryptBytes.Expects f.nature)
    (kind : ByteKind) (envelope : Bytes) :
    (c.decrypt (.bytes kind envelope)).Confined [.payloadTooShort, .decryptionFailed] := by
  rw [decrypt_bytes]
  split
  · exact Task.confined_fail (List.mem_cons_self)
  · exact confined_decryptBytes hc envelope

/-- Each of the checks that a text has to pass fails in one of the two ways. -/
theorem confined_decryptText
    (hc : ∀ f, c.fault = some f → Conversion.decryptText.Expects f.nature) (s : String) :
    (c.decryptText (.text s)).Confined [.payloadTooShort, .decryptionFailed] := by
  have hfail : (Task.fail .decryption : Task String).Confined
      [.payloadTooShort, .decryptionFailed] := Task.confined_fail (by decide)
  rw [decryptText, encodedEnvelope]
  cases Base64.decode s.toList with
  | none => exact hfail
  | some envelope =>
      refine (confined_decrypt hc _ envelope).bind fun plaintext => ?_
      cases Utf8.decode plaintext with
      | none => exact hfail
      | some t => exact Task.confined_pure t

theorem confined_decryptText_broken (c : Cipher) (t : BrokenText) :
    (c.decryptText (.brokenText t)).Confined [.payloadTooShort, .decryptionFailed] :=
  Task.confined_fail (by decide)

end Cipher

namespace Handler

theorem confined_convert {h : Handler} {c : Conversion} {v : Value} (hv : c.Takes v)
    (hc : ∀ f, h.cipher.fault = some f → c.Expects f.nature) :
    (h.convert c v).Confined c.failureKinds := by
  cases hv with
  | plainText s =>
      exact ((Cipher.confined_encryptText hc s).bind fun _ => Task.confined_pure _).bind
        fun _ => Task.confined_pure _
  | octets kind bs => exact (Cipher.confined_encrypt hc kind bs).bind fun _ => Task.confined_pure _
  | envelope kind bs =>
      exact (Cipher.confined_decrypt hc kind bs).bind fun _ => Task.confined_pure _
  | absent => exact Task.confined_pure _
  | markedText s =>
      rw [convert, decryptText, marked?]
      split
      · rename_i hmarked
        split at hmarked
        · obtain rfl := Option.some.inj hmarked
          exact (Cipher.confined_decryptText hc _).bind fun _ => Task.confined_pure _
        · cases hmarked
      · exact Task.confined_pure _
  | markedBroken t =>
      rw [convert, decryptText, marked?]
      cases t.after? h.marker with
      | none => exact Task.confined_pure _
      | some rest =>
          exact (Cipher.confined_decryptText_broken _ rest).bind fun _ => Task.confined_pure _

/-- A text with surrogates is turned down before anything is drawn or logged. -/
theorem perform_convert_broken (h : Handler) (t : BrokenText) (a : Ambient) :
    perform (h.convert .encryptText (.brokenText t)) a = (.error (.misuse .unencodable), a) :=
  rfl

/-- An attempt at a conversion draws and logs what the conversion does. It hands over a value if and
only if the conversion returns it, and a failure if and only if the conversion raises it; everything
else passes through. On arguments of the right type nothing passes through, unless the primitive
fails in a way that is not expected of it; but a text with surrogates that is to be encrypted is
turned down by a misuse, which passes through. -/
theorem attempt_follows_convert (h : Handler) (c : Conversion) (v : Value) (a : Ambient) :
    (perform (h.attempt c v) a).2 = (perform (h.convert c v) a).2 ∧
    (∀ w, (∃ o, (perform (h.attempt c v) a).1 = .ok o ∧ o.HoldsValue w) ↔
      (perform (h.convert c v) a).1 = .ok w) ∧
    (∀ f, (∃ o, (perform (h.attempt c v) a).1 = .ok o ∧ o.HoldsFailure f) ↔
      (perform (h.convert c v) a).1 = .error (.failure f)) ∧
    (∀ e, (perform (h.attempt c v) a).1 = .error e ↔
      (perform (h.convert c v) a).1 = .error e ∧ ∀ f, e ≠ .failure f) ∧
    (c.Takes v → (∀ f, h.cipher.fault = some f → c.Expects f.nature) →
      ∃ o, (perform (h.attempt c v) a).1 = .ok o ∧ ∀ k, o.kind = some k → k ∈ c.failureKinds) ∧
    (∀ t, c = .encryptText → v = .brokenText t →
      perform (h.attempt c v) a = (.error (.misuse .unencodable), a)) := by
  have hled : perform (h.attempt c v) a = _ := Outcome.perform_of (h.convert c v) a
  refine ⟨congrArg Prod.snd hled, ?_, ?_, ?_, ?_, ?_⟩
  · intro w
    rw [hled]
    exact Outcome.exists_holdsValue_iff
  · intro f
    rw [hled]
    exact Outcome.exists_holdsFailure_iff
  · intro e
    rw [hled]
    exact Outcome.attempted_eq_error_iff
  · intro hv hc
    exact (confined_convert hv hc).attempt a
  · rintro t rfl rfl
    rw [hled, perform_convert_broken]
    rfl

/-- A primitive that raises one of the library's own classes, which is a wrong value as well. -/
theorem attempt_follows_convert_own_class :
    let f : Fault := ⟨.own .payloadTooShort "no room", "PayloadTooShort"⟩
    let h : Handler :=
      { cipher := { key := ⟨List.replicate 32 0, by decide⟩, fault := some f }
        marker := standardMarker }
    let a : Ambient := ⟨.ofBytes [1, 2, 3], .ofBytes [], []⟩
    let envelope : Value := .bytes .fixed (List.replicate 28 0)
    let t : BrokenText := ⟨[.char 'a', .surrogate 0], by decide⟩
    (Conversion.encryptText.Takes (.text "€") ∧
      (∀ g, h.cipher.fault = some g → Conversion.encryptText.Expects g.nature) ∧
      (∃ o, (perform (h.attempt .encryptText (.text "€")) a).1 = .ok o ∧
        ∀ k, o.kind = some k → k ∈ [.encryptionFailed]) ∧
      ∃ o, (perform (h.attempt .encryptText (.text "€")) a).1 = .ok o ∧
        o.HoldsFailure (.encryption f)) ∧
    (Conversion.decryptBytes.Takes envelope ∧
      (∀ g, h.cipher.fault = some g → Conversion.decryptBytes.Expects g.nature) ∧
      (∃ o, (perform (h.attempt .decryptBytes envelope) a).1 = .ok o ∧
        ∀ k, o.kind = some k → k ∈ [.payloadTooShort, .decryptionFailed]) ∧
      ∃ o, (perform (h.attempt .decryptBytes envelope) a).1 = .ok o ∧
        o.HoldsFailure .decryption) ∧
    (∃ o, (perform (h.attempt .decryptBytes (.bytes .view [1, 2, 3])) a).1 = .ok o ∧
      o.HoldsFailure (.tooShort 3)) ∧
    (∃ o, (perform (h.attempt .decryptText .null) a).1 = .ok o ∧ o.HoldsValue .null) ∧
    (perform (h.attempt .encryptText (.int 5)) a).1 = .error (.misuse .notText) ∧
    perform (h.attempt .encryptText (.brokenText t)) a = (.error (.misuse .unencodable), a) := by
  intro f h a envelope t
  have hencrypt : ∀ g, h.cipher.fault = some g → Conversion.encryptText.Expects g.nature := by
    rintro g ⟨⟩
    exact .inr (.inl rfl)
  have hdecrypt : ∀ g, h.cipher.fault = some g → Conversion.decryptBytes.Expects g.nature := by
    rintro g ⟨⟩
    exact .inr rfl
  obtain ⟨-, -, hraised, -, htotal, -⟩ :=
    attempt_follows_convert h .encryptText (.text "€") a
  obtain ⟨-, -, hraised', -, htotal', -⟩ := attempt_follows_convert h .decryptBytes envelope a
  obtain ⟨-, -, hshort, -, -, -⟩ :=
    attempt_follows_convert h .decryptBytes (.bytes .view [1, 2, 3]) a
  obtain ⟨-, hnull, -, -, -, -⟩ := attempt_follows_convert h .decryptText .null a
  obtain ⟨-, -, -, hnumber, -, -⟩ := attempt_follows_convert h .encryptText (.int 5) a
  obtain ⟨-, -, -, -, -, hbroken⟩ := attempt_follows_convert h .encryptText (.brokenText t) a
  refine ⟨⟨.plainText _, hencrypt, htotal (.plainText _) hencrypt, (hraised _).mpr rfl⟩,
    ⟨.envelope _ _, hdecrypt, htotal' (.envelope _ _) hdecrypt, (hraised' _).mpr rfl⟩,
    (hshort _).mpr rfl, (hnull _).mpr rfl, (hnumber _).mpr ⟨rfl, nofun⟩, hbroken t rfl rfl⟩

/-- With a primitive that works, the attempt to encrypt a text raises all the same if the text is a
surrogate. -/
theorem attempt_raises_on_surrogate :
    ¬ ∀ (h : Handler) (v : Value) (a : Ambient), h.cipher.fault = none → v.typeName = "str" →
      ∃ o, (perform (h.attempt .encryptText v) a).1 = .ok o := by
  intro hnever
  let h : Handler :=
    { cipher := { key := ⟨List.replicate 32 0, by decide⟩ }, marker := standardMarker }
  let a : Ambient := ⟨.ofBytes [], .ofBytes [], []⟩
  let t : BrokenText := ⟨[.surrogate 0], by decide⟩
  obtain ⟨o, ho⟩ := hnever h (.brokenText t) a rfl rfl
  have hled := congrArg Prod.fst (Outcome.perform_of (h.convert .encryptText (.brokenText t)) a)
  rw [perform_convert_broken] at hled
  cases hled.symm.trans ho

end Handler

end Strongbox
