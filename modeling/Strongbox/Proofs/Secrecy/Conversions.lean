import Strongbox.Attribute
import Strongbox.Proofs.MarkedText
import Strongbox.Proofs.Secrecy.KeyFile

/-! # Conversions keep their secrets

Decryption makes four checks one after the other. Which of them is the first to fail, and the size of
what was to be opened, is all that a refusal depends on; an encryption that is refused depends on the
size of the plaintext. -/

namespace Strongbox

/-- The checks that decryption makes, in this order. -/
inductive Check
  | base64
  | length
  | authentication
  | utf8
deriving DecidableEq

/-- How a failed check ends a task, given the fault of the cipher if it has one and the size of what
was to be opened. -/
def Check.refuse {α : Type} (fault : Option Fault) (size : Nat) : Check → Task α
  | base64 | utf8 => Task.fail .decryption
  | length => Task.fail (.tooShort size)
  | authentication =>
    let f := fault.getD Cipher.badTag
    if f.failsDecryption then do
      Task.log .debug s!"Decryption failed ({size} byte envelope)"
      Task.fail .decryption
    else throw f.abort

/-- The checks whose failure tells the size of what was to be opened. -/
def Check.tellsSize : Check → Bool
  | length | authentication => true
  | base64 | utf8 => false

namespace Cipher

/-- The first check that an envelope fails. -/
def failedOpening? (c : Cipher) (envelope : Bytes) : Option Check :=
  if envelope.length < Failure.envelopeOverhead then some .length
  else match c.unseal? envelope with
    | .error _ => some .authentication
    | .ok _ => none

/-- The first check that the text of an envelope fails, given the envelope if it encodes one. -/
def failedReading? (c : Cipher) : Option Bytes → Option Check
  | none => some .base64
  | some envelope => (c.failedOpening? envelope).or <|
    if ((c.unseal? envelope).toOption.bind Utf8.decode).isSome then none else some .utf8

/-- The envelope that a value encodes, if it does. -/
def envelopeIn? (v : Value) : Option Bytes :=
  (encodedEnvelope v).toOption.join

end Cipher

namespace Handler

/-- The first check that a value fails when it is converted. -/
def failedCheck? (h : Handler) : Conversion → Value → Option Check
  | .decryptText, v => (h.marked? v).bind fun w => h.cipher.failedReading? (Cipher.envelopeIn? w)
  | .decryptBytes, .bytes _ envelope => h.cipher.failedOpening? envelope
  | .decryptBytes, .text s => if s.length < Failure.envelopeOverhead then some .length else none
  | _, _ => none

/-- The size of what is to be opened, as it is counted: octets of an envelope, and characters of a
text that is given for one. -/
def openedSize? (h : Handler) : Conversion → Value → Option Nat
  | .decryptText, v => (h.marked? v).bind fun w => (Cipher.envelopeIn? w).map List.length
  | .decryptBytes, v => v.length?
  | _, _ => none

end Handler

/-- Two arguments of one kind and of one size in their encoding. -/
inductive Value.Alike : Value → Value → Prop
  | null : Alike .null .null
  | text {s t : String} : s.utf8ByteSize = t.utf8ByteSize → Alike (.text s) (.text t)
  | bytes (kind : ByteKind) {a b : Bytes} : SameLength a b → Alike (.bytes kind a) (.bytes kind b)

/-! ## Refusals -/

namespace Check

variable {α β : Type} {R : α → β → Prop}

theorem refuse_bind (check : Check) (fault : Option Fault) (size : Nat) (f : α → Task β) :
    (check.refuse fault size : Task α) >>= f = check.refuse fault size := by
  cases check with
  | base64 => rfl
  | length => rfl
  | utf8 => rfl
  | authentication =>
      simp only [refuse]
      split <;> rfl

theorem refuse_congr {check : Check} {fault : Option Fault} {size size' : Nat}
    (h : check.tellsSize = true → size = size') :
    (check.refuse fault size : Task α) = check.refuse fault size' := by
  cases check with
  | base64 => rfl
  | utf8 => rfl
  | length => rw [h rfl]
  | authentication => rw [h rfl]

theorem refuse_paired (check : Check) (fault : Option Fault) (size : Nat) :
    Paired Ambient.Alike R (check.refuse fault size) (check.refuse fault size) := by
  cases check with
  | base64 => exact .throw _
  | length => exact .throw _
  | utf8 => exact .throw _
  | authentication =>
      simp only [refuse]
      split
      · exact (Paired.log _ _).bind fun _ _ _ => .throw _
      · exact .throw _

end Check

namespace Cipher

variable {c c' : Cipher}

theorem decryptBytes_of_error {envelope : Bytes} {f : Fault}
    (h : c.unseal? envelope = .error f) :
    c.decryptBytes envelope = Check.refuse c.fault envelope.length .authentication := by
  rw [decryptBytes, h, unseal?_eq_error h]
  rfl

theorem decrypt_of_failed {envelope : Bytes} {check : Check}
    (h : c.failedOpening? envelope = some check) (kind : ByteKind) :
    c.decrypt (.bytes kind envelope) = check.refuse c.fault envelope.length := by
  rw [failedOpening?] at h
  rw [decrypt_bytes]
  by_cases hshort : envelope.length < Failure.envelopeOverhead
  · rw [if_pos hshort] at h ⊢
    obtain rfl := Option.some.inj h
    rfl
  · rw [if_neg hshort] at h ⊢
    cases hunseal : c.unseal? envelope with
    | error f =>
        rw [hunseal] at h
        obtain rfl := Option.some.inj h
        exact decryptBytes_of_error hunseal
    | ok plaintext =>
        rw [hunseal] at h
        cases h

theorem decrypt_of_passed {envelope : Bytes} (h : c.failedOpening? envelope = none)
    (kind : ByteKind) :
    ∃ plaintext, c.unseal? envelope = .ok plaintext ∧
      c.decrypt (.bytes kind envelope) = pure plaintext := by
  rw [failedOpening?] at h
  rw [decrypt_bytes]
  by_cases hshort : envelope.length < Failure.envelopeOverhead
  · rw [if_pos hshort] at h
    cases h
  · rw [if_neg hshort] at h ⊢
    cases hunseal : c.unseal? envelope with
    | error f =>
        rw [hunseal] at h
        cases h
    | ok plaintext =>
        rw [decryptBytes, hunseal]
        exact ⟨plaintext, rfl, rfl⟩

theorem envelopeIn?_of_ok {v : Value} {inside : Option Bytes}
    (hv : encodedEnvelope v = .ok inside) : envelopeIn? v = inside := by
  rw [envelopeIn?, hv]
  rfl

theorem decryptText_of_failed {v : Value} {inside : Option Bytes} {check : Check}
    (hv : encodedEnvelope v = .ok inside) (h : c.failedReading? inside = some check) :
    c.decryptText v = check.refuse c.fault ((inside.map List.length).getD 0) := by
  rw [decryptText, hv]
  cases inside with
  | none =>
      obtain rfl := Option.some.inj h
      rfl
  | some envelope =>
      rw [failedReading?] at h
      dsimp only
      cases hopen : c.failedOpening? envelope with
      | some check' =>
          rw [hopen] at h
          obtain rfl := Option.some.inj h
          rw [Value.ofBytes, decrypt_of_failed hopen]
          exact check'.refuse_bind _ _ _
      | none =>
          obtain ⟨plaintext, hunseal, hd⟩ := decrypt_of_passed hopen .fixed
          rw [hopen, hunseal] at h
          rw [Value.ofBytes, hd, pure_bind]
          cases htext : Utf8.decode plaintext with
          | some t => simp [htext, Except.toOption] at h
          | none =>
              obtain rfl : Check.utf8 = check := by simpa [htext, Except.toOption] using h
              rfl

theorem decryptText_of_passed {v : Value} {inside : Option Bytes}
    (hv : encodedEnvelope v = .ok inside) (h : c.failedReading? inside = none) :
    ∃ t, c.decryptText v = pure t := by
  rw [decryptText, hv]
  cases inside with
  | none => cases h
  | some envelope =>
      obtain ⟨hopen, htext⟩ := Option.or_eq_none_iff.mp h
      dsimp only
      obtain ⟨plaintext, hunseal, hd⟩ := decrypt_of_passed hopen .fixed
      rw [hunseal] at htext
      rw [Value.ofBytes, hd, pure_bind]
      cases ht : Utf8.decode plaintext with
      | some t => exact ⟨t, rfl⟩
      | none => simp [ht, Except.toOption] at htext

/-! ## Encryption -/

/-- Whether the primitive takes a plaintext depends on its length. -/
theorem seal?_agrees (hc : c.fault = c'.fault) {a b : Bytes} (hab : SameLength a b)
    (iv iv' : Bytes) :
    (∃ e e', c.seal? iv a = .ok e ∧ c'.seal? iv' b = .ok e') ∨
      ∃ f, c.seal? iv a = .error f ∧ c'.seal? iv' b = .error f := by
  rw [seal?, seal?, hc, hab]
  cases c'.fault with
  | some f => exact .inr ⟨f, rfl, rfl⟩
  | none =>
      dsimp only
      split
      · exact .inr ⟨tooLong, rfl, rfl⟩
      · exact .inl ⟨_, _, rfl, rfl⟩

theorem encrypt_paired (hc : c.fault = c'.fault) (kind : ByteKind) {a b : Bytes}
    (hab : SameLength a b) :
    Paired Ambient.Alike Unrelated (c.encrypt (.bytes kind a)) (c'.encrypt (.bytes kind b)) := by
  refine (Paired.draw _).bind fun iv iv' _ => ?_
  obtain ⟨e, e', hseal, hseal'⟩ | ⟨f, hseal, hseal'⟩ := seal?_agrees hc hab iv iv'
  · rw [hseal, hseal']
    exact .pure trivial
  · rw [hseal, hseal']
    dsimp only
    split
    · exact (Paired.log _ _).bind fun _ _ _ => .throw _
    · exact .throw _

theorem encryptText_paired (hc : c.fault = c'.fault) {v v' : Value} (hv : v.Alike v') :
    Paired Ambient.Alike Unrelated (c.encryptText v) (c'.encryptText v') := by
  cases hv with
  | null => exact .throw _
  | bytes kind hab => exact .throw _
  | text hst => exact (encrypt_paired hc .fixed hst).bind fun _ _ _ => .pure trivial

end Cipher

namespace Handler

variable {h h' : Handler} {v v' : Value}

theorem encryptText_paired (hh : h.Alike h') (hv : v.Alike v') :
    Paired Ambient.Alike Unrelated (h.encryptText v) (h'.encryptText v') :=
  (Cipher.encryptText_paired hh.fault hv).bind fun _ _ _ => .pure trivial

/-! ## Decryption -/

theorem encodedEnvelope_of_marked {w : Value} (hv : h.marked? v = some w) :
    ∃ inside, Cipher.encodedEnvelope w = .ok inside := by
  obtain ⟨s, -, rfl⟩ | ⟨t, -, rfl⟩ := of_marked? hv
  · exact ⟨Base64.decode s.toList, rfl⟩
  · exact ⟨none, rfl⟩

theorem decryptText_of_failed {check : Check} (hfailed : h.failedCheck? .decryptText v = some check) :
    h.decryptText v =
      check.refuse h.cipher.fault ((h.openedSize? .decryptText v).getD 0) := by
  obtain ⟨encoded, hv, hreading⟩ := Option.bind_eq_some_iff.mp hfailed
  obtain ⟨inside, hinside⟩ := encodedEnvelope_of_marked hv
  rw [Cipher.envelopeIn?_of_ok hinside] at hreading
  rw [decryptText, openedSize?, hv]
  dsimp only [Option.bind_some]
  rw [Cipher.decryptText_of_failed hinside hreading, Check.refuse_bind,
    Cipher.envelopeIn?_of_ok hinside]

theorem decryptText_of_passed (hpassed : h.failedCheck? .decryptText v = none) :
    ∃ w, h.decryptText v = pure w := by
  rw [decryptText]
  cases hv : h.marked? v with
  | none => exact ⟨v, rfl⟩
  | some encoded =>
      obtain ⟨inside, hinside⟩ := encodedEnvelope_of_marked hv
      rw [failedCheck?, hv, Option.bind_some, Cipher.envelopeIn?_of_ok hinside] at hpassed
      obtain ⟨t, ht⟩ := Cipher.decryptText_of_passed hinside hpassed
      dsimp only
      rw [ht]
      exact ⟨.text t, rfl⟩

end Handler

/-- Arguments of one kind and encoded size that pass or fail the same checks. -/
structure Checked (h h' : Handler) (c : Conversion) (v v' : Value) : Prop where
  alike : v.Alike v'
  checks : h.failedCheck? c v = h'.failedCheck? c v'

/-- Besides, where a failure tells the size of what was to be opened, it is the same size. -/
structure Measured (h h' : Handler) (c : Conversion) (v v' : Value) : Prop
    extends Checked h h' c v v' where
  size : ∀ check, h.failedCheck? c v = some check → check.tellsSize = true →
    h.openedSize? c v = h'.openedSize? c v'

namespace Handler

variable {h h' : Handler} {v v' : Value}

theorem refuse_openedSize (hh : h.Alike h') {c : Conversion} {check : Check} {α : Type}
    (hm : Measured h h' c v v') (hfailed : h.failedCheck? c v = some check) :
    (check.refuse h.cipher.fault ((h.openedSize? c v).getD 0) : Task α) =
      check.refuse h'.cipher.fault ((h'.openedSize? c v').getD 0) := by
  rw [hh.fault]
  exact Check.refuse_congr fun htells => by rw [hm.size check hfailed htells]

theorem decryptText_paired (hh : h.Alike h') (hm : Measured h h' .decryptText v v') :
    Paired Ambient.Alike Unrelated (h.decryptText v) (h'.decryptText v') := by
  cases hcheck : h.failedCheck? .decryptText v with
  | none =>
      obtain ⟨w, hw⟩ := decryptText_of_passed hcheck
      obtain ⟨w', hw'⟩ := decryptText_of_passed (hm.checks ▸ hcheck)
      rw [hw, hw']
      exact .pure trivial
  | some check =>
      rw [decryptText_of_failed hcheck, decryptText_of_failed (hm.checks ▸ hcheck),
        refuse_openedSize hh hm hcheck]
      exact check.refuse_paired _ _

theorem decryptBytes_of_failed {check : Check}
    (hfailed : h.failedCheck? .decryptBytes v = some check) :
    h.cipher.decrypt v = check.refuse h.cipher.fault ((h.openedSize? .decryptBytes v).getD 0) := by
  cases v with
  | bytes kind envelope => exact Cipher.decrypt_of_failed hfailed kind
  | text s =>
      rw [failedCheck?] at hfailed
      split at hfailed
      · rename_i hshort
        obtain rfl := Option.some.inj hfailed
        simp only [Cipher.decrypt, Value.length?, if_pos hshort]
        rfl
      · cases hfailed
  | _ => cases hfailed

theorem decryptBytes_paired (hh : h.Alike h') (hm : Measured h h' .decryptBytes v v') :
    Paired Ambient.Alike Unrelated (h.cipher.decrypt v) (h'.cipher.decrypt v') := by
  cases hcheck : h.failedCheck? .decryptBytes v with
  | some check =>
      rw [decryptBytes_of_failed hcheck, decryptBytes_of_failed (hm.checks ▸ hcheck),
        refuse_openedSize hh hm hcheck]
      exact check.refuse_paired _ _
  | none =>
      have hcheck' := hm.checks ▸ hcheck
      cases hm.alike with
      | null => exact .throw _
      | bytes kind hab =>
          obtain ⟨plaintext, -, hd⟩ := Cipher.decrypt_of_passed hcheck kind
          obtain ⟨plaintext', -, hd'⟩ := Cipher.decrypt_of_passed hcheck' kind
          rw [hd, hd']
          exact .pure trivial
      | @text s t _ =>
          -- A text that is long enough is refused for its type.
          have hlong : ∀ {c : Cipher} {s : String}, ¬ s.length < Failure.envelopeOverhead →
              c.decrypt (.text s) = throw (.misuse .notOctets) := by
            intro c s hs
            simp only [Cipher.decrypt, Value.length?, if_neg hs]
            rfl
          simp only [failedCheck?, ite_eq_right_iff, reduceCtorEq, imp_false] at hcheck hcheck'
          rw [hlong hcheck, hlong hcheck']
          exact .throw _

/-! ## All conversions -/

theorem convert_paired (hh : h.Alike h') {c : Conversion} (hm : Measured h h' c v v') :
    Paired Ambient.Alike Unrelated (h.convert c v) (h'.convert c v') := by
  cases c with
  | encryptText => exact (encryptText_paired hh hm.alike).bind fun _ _ _ => .pure trivial
  | decryptText => exact decryptText_paired hh hm
  | decryptBytes => exact (decryptBytes_paired hh hm).bind fun _ _ _ => .pure trivial
  | encryptBytes =>
      have hencrypt : Paired Ambient.Alike Unrelated (h.cipher.encrypt v) (h'.cipher.encrypt v') := by
        cases hm.alike with
        | null => exact .throw _
        | text _ => exact .throw _
        | bytes kind hab => exact Cipher.encrypt_paired hh.fault kind hab
      exact hencrypt.bind fun _ _ _ => .pure trivial

/-- An outcome has the failure in it that would have been raised. -/
theorem attempt_paired (hh : h.Alike h') {c : Conversion} (hm : Measured h h' c v v') :
    Paired Ambient.Alike (fun o o' : Outcome => o.failure = o'.failure) (h.attempt c v)
      (h'.attempt c v') := by
  have hconvert : Paired Ambient.Alike (fun o o' : Outcome => o.failure = o'.failure)
      (do return { value := ← h.convert c v }) (do return { value := ← h'.convert c v' }) :=
    (convert_paired hh hm).bind fun _ _ _ => .pure rfl
  refine hconvert.tryCatch fun e => ?_
  cases e with
  | failure f => exact .pure rfl
  | _ => exact .throw _

end Handler

namespace Attribute

variable {h h' : Handler} {v v' : Value}

theorem store_paired (hh : h.Alike h') (hv : v.Alike v') :
    Paired Ambient.Alike Unrelated (store h v) (store h' v') := by
  have hstore : Paired Ambient.Alike Unrelated (do return Value.text (← h.encryptText v))
      (do return Value.text (← h'.encryptText v')) :=
    (Handler.encryptText_paired hh hv).bind fun _ _ _ => .pure trivial
  cases hv with
  | null => exact .pure trivial
  | text _ => exact hstore
  | bytes _ _ => exact hstore

theorem restore_paired (hh : h.Alike h') (hm : Measured h h' .decryptText v v') :
    Paired Ambient.Alike Unrelated (restore h v) (restore h' v') := by
  rw [Handler.restore_eq_decryptText, Handler.restore_eq_decryptText]
  exact Handler.decryptText_paired hh hm

end Attribute

end Strongbox
