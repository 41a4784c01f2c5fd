import Mathlib.Tactic.NormNum
import Strongbox.Cipher
import Strongbox.Proofs.CounterMode
import Strongbox.Proofs.Perform

/-! # Byte envelopes

Decryption accepts exactly the envelopes that encryption makes, and gives back what is in them.
What a working cipher does is stated once for each direction; everything about envelopes follows
from these two equations and from counter mode. -/

namespace Strongbox

/-! ## Envelopes -/

namespace Envelope

variable (k : Key)

theorem length_close {iv : Bytes} (hiv : iv.length = ivSize) (plaintext : Bytes) :
    (close k iv plaintext).length = plaintext.length + 28 := by
  rw [close, List.length_append, Gcm.length_encrypt, hiv, ivSize]
  omega

theorem take_close {iv : Bytes} (hiv : iv.length = ivSize) (plaintext : Bytes) :
    (close k iv plaintext).take ivSize = iv :=
  List.take_left' hiv

theorem open?_eq_some_iff {envelope plaintext : Bytes} :
    open? k envelope = some plaintext ↔
      envelope = close k (envelope.take ivSize) plaintext := by
  rw [open?, Gcm.decrypt?_eq_some_iff, close]
  constructor
  · intro h
    rw [← h, List.take_append_drop]
  · intro h
    exact List.append_cancel_left ((List.take_append_drop ivSize envelope).trans h)

theorem open?_close {iv : Bytes} (hiv : iv.length = ivSize) (plaintext : Bytes) :
    open? k (close k iv plaintext) = some plaintext := by
  rw [open?_eq_some_iff, take_close k hiv]

/-- An envelope that opens holds a vector, the text and a tag. -/
theorem length_of_open?_eq_some {envelope plaintext : Bytes} (hsize : ivSize ≤ envelope.length)
    (h : open? k envelope = some plaintext) : envelope.length = plaintext.length + 28 := by
  rw [(open?_eq_some_iff k).mp h]
  exact length_close k (by simpa using hsize) plaintext

end Envelope

/-! ## What the primitive refuses -/

namespace Cipher

variable {c : Cipher}

theorem seal?_eq_error {iv plaintext : Bytes} {f : Fault} (h : c.seal? iv plaintext = .error f) :
    f = c.fault.getD tooLong := by
  rw [seal?] at h
  cases hfault : c.fault with
  | some g =>
      rw [hfault] at h
      exact (Except.error.inj h).symm
  | none =>
      rw [hfault] at h
      dsimp only at h
      split at h
      · exact (Except.error.inj h).symm
      · cases h

theorem unseal?_eq_error {envelope : Bytes} {f : Fault} (h : c.unseal? envelope = .error f) :
    f = c.fault.getD badTag := by
  rw [unseal?] at h
  cases hfault : c.fault with
  | some g =>
      rw [hfault] at h
      exact (Except.error.inj h).symm
  | none =>
      rw [hfault] at h
      dsimp only at h
      split at h
      · cases h
      · exact (Except.error.inj h).symm

end Cipher

/-! ## What a working cipher does -/

namespace Cipher

theorem maxPlaintext_eq : maxPlaintext = 2 ^ 31 - 1 := by
  norm_num [maxPlaintext, twoTo]

variable {c : Cipher}

theorem perform_encrypt (hc : c.fault = none) {plaintext : Bytes}
    (hsize : plaintext.length ≤ maxPlaintext) (kind : ByteKind) (a : Ambient) :
    perform (c.encrypt (.bytes kind plaintext)) a =
      (.ok (Envelope.close c.key (a.entropy.draw Envelope.ivSize).1 plaintext),
        { a with entropy := (a.entropy.draw Envelope.ivSize).2 }) := by
  simp [encrypt, seal?, hc, Nat.not_lt.mpr hsize, Except.map]

/-- A plaintext that the primitive does not take costs a vector all the same. -/
theorem perform_encrypt_of_lt (hc : c.fault = none) {plaintext : Bytes}
    (hlong : maxPlaintext < plaintext.length) (kind : ByteKind) (a : Ambient) :
    perform (c.encrypt (.bytes kind plaintext)) a =
      (.error (.failure (.encryption tooLong)),
        { a with entropy := (a.entropy.draw Envelope.ivSize).2 }.record .error
          s!"Encryption failed: {tooLong.name}") := by
  have hfails : tooLong.failsEncryption = true := rfl
  simp [encrypt, seal?, hc, hlong, hfails]

theorem decrypt_bytes (c : Cipher) (kind : ByteKind) (envelope : Bytes) :
    c.decrypt (.bytes kind envelope) =
      if envelope.length < Failure.envelopeOverhead then Task.fail (.tooShort envelope.length)
      else c.decryptBytes envelope :=
  rfl

/-- What the primitive refuses is logged with its length. -/
theorem perform_decryptBytes (hc : c.fault = none) (envelope : Bytes) (a : Ambient) :
    perform (c.decryptBytes envelope) a =
      match Envelope.open? c.key envelope with
      | some plaintext => (.ok plaintext, a)
      | none =>
        (.error (.failure .decryption),
          a.record .debug s!"Decryption failed ({envelope.length} byte envelope)") := by
  unfold decryptBytes unseal?
  rw [hc]
  cases Envelope.open? c.key envelope with
  | none => rfl
  | some plaintext => rfl

theorem perform_decrypt_eq_ok_iff (hc : c.fault = none) {kind : ByteKind}
    {envelope plaintext : Bytes} {a a' : Ambient} :
    perform (c.decrypt (.bytes kind envelope)) a = (.ok plaintext, a') ↔
      28 ≤ envelope.length ∧ Envelope.open? c.key envelope = some plaintext ∧ a' = a := by
  rw [decrypt_bytes]
  by_cases hshort : envelope.length < Failure.envelopeOverhead
  · have hlen : ¬ 28 ≤ envelope.length := Nat.not_le.mpr hshort
    simp [hshort, hlen]
  · have hlen : 28 ≤ envelope.length := Nat.not_lt.mp hshort
    rw [if_neg hshort, perform_decryptBytes hc]
    cases Envelope.open? c.key envelope <;> simp [hlen, eq_comm]

/-! ## Both directions -/

/-- Encryption under the vector that is drawn gives an envelope from which decryption gets the
plaintext back; and whatever decryption accepts is the envelope that encryption makes of the result
when it draws the vector written in front of it. -/
theorem decrypt_iff_encrypt (k : Key) :
    let c : Cipher := { key := k }
    (∀ (kind kind' : ByteKind) (iv plaintext : Bytes) (a b : Ambient),
      plaintext.length + 28 ≤ 2 ^ 31 - 1 → (a.entropy.draw 12).1 = iv →
        ∃ envelope,
          perform (c.encrypt (.bytes kind plaintext)) a =
            (.ok envelope, { a with entropy := (a.entropy.draw 12).2 }) ∧
          envelope.length = plaintext.length + 28 ∧ envelope.take 12 = iv ∧
          perform (c.decrypt (.bytes kind' envelope)) b = (.ok plaintext, b)) ∧
    (∀ (kind kind' : ByteKind) (envelope plaintext : Bytes) (a a' b : Ambient),
      envelope.length ≤ 2 ^ 31 - 1 →
        perform (c.decrypt (.bytes kind envelope)) a = (.ok plaintext, a') →
          envelope.length = plaintext.length + 28 ∧
          ((b.entropy.draw 12).1 = envelope.take 12 →
            perform (c.encrypt (.bytes kind' plaintext)) b =
              (.ok envelope, { b with entropy := (b.entropy.draw 12).2 }))) := by
  intro c
  constructor
  · rintro kind kind' iv plaintext a b hsize rfl
    have hiv := Entropy.length_draw a.entropy Envelope.ivSize
    have hlen := Envelope.length_close k hiv plaintext
    have hmax : plaintext.length ≤ maxPlaintext := by
      rw [maxPlaintext_eq]
      omega
    refine ⟨_, perform_encrypt rfl hmax kind a, hlen, Envelope.take_close k hiv plaintext, ?_⟩
    rw [perform_decrypt_eq_ok_iff rfl]
    exact ⟨hlen ▸ Nat.le_add_left 28 _, Envelope.open?_close k hiv plaintext, rfl⟩
  · intro kind kind' envelope plaintext a a' b hsize h
    obtain ⟨hmin, hopen, -⟩ := (perform_decrypt_eq_ok_iff rfl).mp h
    have hlen := Envelope.length_of_open?_eq_some k ((by decide : 12 ≤ 28).trans hmin) hopen
    refine ⟨hlen, fun hiv => ?_⟩
    have hmax : plaintext.length ≤ maxPlaintext := by
      rw [maxPlaintext_eq]
      omega
    rw [perform_encrypt rfl hmax, Envelope.ivSize, hiv]
    rw [← Envelope.ivSize, ← (Envelope.open?_eq_some_iff k).mp hopen]

theorem decrypt_iff_encrypt_hello :
    let c : Cipher := { key := ⟨List.replicate 32 0, by decide⟩ }
    let a : Ambient := ⟨.ofBytes [1, 2, 3, 4, 5, 6, 7, 8, 9, 10, 11, 12], .ofBytes [], []⟩
    ∃ envelope,
      perform (c.encrypt (.bytes .buffer [104, 101, 108, 108, 111])) a =
        (.ok envelope, { a with entropy := (a.entropy.draw 12).2 }) ∧
      envelope.length = 33 ∧ envelope.take 12 = [1, 2, 3, 4, 5, 6, 7, 8, 9, 10, 11, 12] ∧
      perform (c.decrypt (.bytes .view envelope)) a = (.ok [104, 101, 108, 108, 111], a) ∧
      perform (c.encrypt (.bytes .fixed [104, 101, 108, 108, 111])) a =
        (.ok envelope, { a with entropy := (a.entropy.draw 12).2 }) := by
  intro c a
  obtain ⟨hencrypt, hdecrypt⟩ := decrypt_iff_encrypt ⟨List.replicate 32 0, by decide⟩
  obtain ⟨envelope, he, hlen, hiv, hd⟩ :=
    hencrypt .buffer .view _ [104, 101, 108, 108, 111] a a (by norm_num) rfl
  obtain ⟨-, hback⟩ := hdecrypt .view .fixed envelope _ a a a (by rw [hlen]; norm_num) hd
  exact ⟨envelope, he, hlen, hiv.trans (by decide), hd, hback hiv.symm⟩

end Cipher

end Strongbox
