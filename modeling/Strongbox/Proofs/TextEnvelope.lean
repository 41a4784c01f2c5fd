import Strongbox.Proofs.Base64Reading
import Strongbox.Proofs.MarkedText

/-! # Text envelopes

What becomes of any text that is to be decrypted: it is not Base64, or its octets are too few, or
they do not open, or what is in them is not a text, or it is. -/

namespace Strongbox

namespace Utf8

theorem encode_eq_flatMap (text : String) :
    encode text = text.toList.flatMap String.utf8EncodeChar := by
  have hbytes : text.toByteArray = (text.toList.flatMap String.utf8EncodeChar).toByteArray := by
    conv => lhs; rw [← String.ofList_toList (s := text)]
    rfl
  rw [encode, hbytes, List.toList_data_toByteArray]

theorem decode_eq_none_iff {bs : Bytes} :
    decode bs = none ↔ ∀ text : String, bs ≠ text.toList.flatMap String.utf8EncodeChar := by
  simp only [Option.eq_none_iff_forall_ne_some, ne_eq, decode_eq_some_iff, encode_eq_flatMap]

end Utf8

/-- The result of decrypting the text `s` in the state `a`, and the state after it. -/
inductive TextOutcome (c : Cipher) (s : String) (a : Ambient) :
    Except Abort String → Ambient → Prop
  | malformed : (∀ e, ¬ Base64.Reads s.toList e) →
      TextOutcome c s a (.error (.failure .decryption)) a
  | short (e : Bytes) : Base64.Reads s.toList e → e.length < 28 →
      TextOutcome c s a (.error (.failure (.tooShort e.length))) a
  | forged (e : Bytes) : Base64.Reads s.toList e → 28 ≤ e.length →
      (∀ plaintext a', perform (c.decrypt (.ofBytes e)) a ≠ (.ok plaintext, a')) →
      TextOutcome c s a (.error (.failure .decryption))
        (a.record .debug s!"Decryption failed ({e.length} byte envelope)")
  | garbled (e plaintext : Bytes) : Base64.Reads s.toList e → 28 ≤ e.length →
      perform (c.decrypt (.ofBytes e)) a = (.ok plaintext, a) →
      (∀ t : String, plaintext ≠ t.toList.flatMap String.utf8EncodeChar) →
      TextOutcome c s a (.error (.failure .decryption)) a
  | text (e : Bytes) (t : String) : Base64.Reads s.toList e → 28 ≤ e.length →
      perform (c.decrypt (.ofBytes e)) a = (.ok (t.toList.flatMap String.utf8EncodeChar), a) →
      TextOutcome c s a (.ok t) a

namespace TextOutcome

variable {c : Cipher} {s : String} {a a' : Ambient} {r : Except Abort String}

theorem draws_nothing (h : TextOutcome c s a r a') :
    a'.entropy = a.entropy ∧ a'.generator = a.generator := by
  cases h <;> exact ⟨rfl, rfl⟩

theorem failure (h : TextOutcome c s a r a') {e : Abort} (hr : r = .error e) :
    e = .failure .decryption ∨ ∃ n < 28, e = .failure (.tooShort n) := by
  cases h with
  | malformed => exact .inl (Except.error.inj hr).symm
  | short e _ hlen => exact .inr ⟨e.length, hlen, (Except.error.inj hr).symm⟩
  | forged => exact .inl (Except.error.inj hr).symm
  | garbled => exact .inl (Except.error.inj hr).symm
  | text => cases hr

end TextOutcome

namespace Cipher

variable {c : Cipher}

theorem perform_decryptText_of_decode_eq_none {s : String} (hs : Base64.decode s.toList = none)
    (a : Ambient) :
    perform (c.decryptText (.text s)) a = (.error (.failure .decryption), a) := by
  simp [decryptText, encodedEnvelope, hs]

theorem perform_decryptText_of_error {s : String} {e : Bytes} {a a' : Ambient} {abort : Abort}
    (hs : Base64.decode s.toList = some e)
    (hd : perform (c.decrypt (.ofBytes e)) a = (.error abort, a')) :
    perform (c.decryptText (.text s)) a = (.error abort, a') := by
  simp only [decryptText, encodedEnvelope, hs, perform_bind, hd]

theorem perform_decryptText_of_ok {s : String} {e plaintext : Bytes} {a a' : Ambient}
    (hs : Base64.decode s.toList = some e)
    (hd : perform (c.decrypt (.ofBytes e)) a = (.ok plaintext, a')) :
    perform (c.decryptText (.text s)) a =
      (match Utf8.decode plaintext with
        | some t => .ok t
        | none => .error (.failure .decryption), a') := by
  simp only [decryptText, encodedEnvelope, hs, perform_bind, hd]
  cases Utf8.decode plaintext <;> rfl

/-- Octets that are an envelope by their number open, or are refused with a record. -/
theorem perform_decrypt_of_length (hc : c.fault = none) {e : Bytes} (hlen : 28 ≤ e.length)
    (a : Ambient) :
    (∃ plaintext, perform (c.decrypt (.ofBytes e)) a = (.ok plaintext, a)) ∨
      perform (c.decrypt (.ofBytes e)) a =
        (.error (.failure .decryption),
          a.record .debug s!"Decryption failed ({e.length} byte envelope)") := by
  have hlong : ¬ e.length < Failure.envelopeOverhead := Nat.not_lt.mpr hlen
  rw [Value.ofBytes, decrypt_bytes, if_neg hlong, perform_decryptBytes hc]
  cases Envelope.open? c.key e with
  | none => exact .inr rfl
  | some plaintext => exact .inl ⟨plaintext, rfl⟩

theorem perform_decrypt_of_length_lt {e : Bytes} (hlen : e.length < 28) (a : Ambient) :
    perform (c.decrypt (.ofBytes e)) a = (.error (.failure (.tooShort e.length)), a) := by
  have hshort : e.length < Failure.envelopeOverhead := hlen
  rw [Value.ofBytes, decrypt_bytes, if_pos hshort, Task.perform_fail]

theorem textOutcome_perform (hc : c.fault = none) (s : String) (a : Ambient) :
    TextOutcome c s a (perform (c.decryptText (.text s)) a).1
      (perform (c.decryptText (.text s)) a).2 := by
  cases hs : Base64.decode s.toList with
  | none =>
      rw [perform_decryptText_of_decode_eq_none hs]
      refine .malformed fun e he => ?_
      rw [Base64.decode_eq_some_iff.mpr he] at hs
      cases hs
  | some e =>
      have he := Base64.decode_eq_some_iff.mp hs
      by_cases hlen : e.length < 28
      · rw [perform_decryptText_of_error hs (perform_decrypt_of_length_lt hlen a)]
        exact .short e he hlen
      · have hlen' := Nat.not_lt.mp hlen
        obtain ⟨plaintext, hd⟩ | hd := perform_decrypt_of_length hc hlen' a
        · rw [perform_decryptText_of_ok hs hd]
          cases ht : Utf8.decode plaintext with
          | none => exact .garbled e plaintext he hlen' hd (Utf8.decode_eq_none_iff.mp ht)
          | some t =>
              rw [Utf8.decode_eq_some_iff.mp ht, Utf8.encode_eq_flatMap] at hd
              exact .text e t he hlen' hd
        · rw [perform_decryptText_of_error hs hd]
          refine .forged e he hlen' fun plaintext a' heq => ?_
          rw [hd] at heq
          cases heq

theorem perform_decryptText_of_textOutcome (hc : c.fault = none) {s : String} {a a' : Ambient}
    {r : Except Abort String} (h : TextOutcome c s a r a') :
    perform (c.decryptText (.text s)) a = (r, a') := by
  cases h with
  | malformed hs =>
      apply perform_decryptText_of_decode_eq_none
      rw [Option.eq_none_iff_forall_ne_some]
      exact fun e he => hs e (Base64.decode_eq_some_iff.mp he)
  | short e he hlen =>
      exact perform_decryptText_of_error (Base64.decode_eq_some_iff.mpr he)
        (perform_decrypt_of_length_lt hlen a)
  | forged e he hlen hd =>
      obtain ⟨plaintext, hd'⟩ | hd' := perform_decrypt_of_length hc hlen a
      · exact absurd hd' (hd plaintext a)
      · exact perform_decryptText_of_error (Base64.decode_eq_some_iff.mpr he) hd'
  | garbled e plaintext he hlen hd ht =>
      rw [perform_decryptText_of_ok (Base64.decode_eq_some_iff.mpr he) hd,
        Utf8.decode_eq_none_iff.mpr ht]
  | text e t he hlen hd =>
      rw [perform_decryptText_of_ok (Base64.decode_eq_some_iff.mpr he) hd,
        ← Utf8.encode_eq_flatMap, Utf8.decode_encode]

end Cipher

namespace Handler

/-- The outcome of decrypting a text, by a cipher or behind the marker of a handler. Failures are
of two kinds; those of one kind carry one message; and nothing random is used. -/
theorem decryptText_outcome (k : Key) (marker s : String) (a : Ambient) :
    let c : Cipher := { key := k }
    let h : Handler := { cipher := c, marker }
    (∀ r a', perform (c.decryptText (.text s)) a = (r, a') ↔ TextOutcome c s a r a') ∧
    (∀ r a', perform (h.decryptText (.text (marker ++ s))) a = (r, a') ↔
      ∃ r', r = r'.map .text ∧ TextOutcome c s a r' a') ∧
    (∀ r a', TextOutcome c s a r a' →
      a'.entropy = a.entropy ∧ a'.generator = a.generator ∧
        ∀ e, r = .error e →
          (∃ f : Failure, e = .failure f ∧ f.cls = .decryptionFailed ∧
            f.arguments = [.text "Decryption failed"]) ∨
          ∃ n < 28, e = .failure (.tooShort n)) := by
  intro c h
  have hc : ∀ r a', perform (c.decryptText (.text s)) a = (r, a') ↔ TextOutcome c s a r a' := by
    intro r a'
    constructor
    · intro hperform
      have houtcome := Cipher.textOutcome_perform (c := c) rfl s a
      rwa [hperform] at houtcome
    · exact Cipher.perform_decryptText_of_textOutcome rfl
  refine ⟨hc, ?_, ?_⟩
  · intro r a'
    rw [perform_decryptText_append (h := h) s a]
    constructor
    · intro hperform
      obtain ⟨rfl, rfl⟩ := Prod.mk.inj hperform
      exact ⟨_, rfl, (hc _ _).mp rfl⟩
    · rintro ⟨r', rfl, houtcome⟩
      have hperform := (hc r' a').mpr houtcome
      rw [show h.cipher = c from rfl, hperform]
  · intro r a' houtcome
    refine ⟨houtcome.draws_nothing.1, houtcome.draws_nothing.2, fun e he => ?_⟩
    obtain rfl | hshort := houtcome.failure he
    · exact .inl ⟨.decryption, rfl, rfl, rfl⟩
    · exact .inr hshort

end Handler

end Strongbox
