import Strongbox.Attribute
import Strongbox.Proofs.Acts
import Strongbox.Properties

/-! # What ciphers and handlers draw

An encryption draws its vector once the plaintext has the right type, and the envelope begins with
that vector. A plaintext of another type, or a text that no octets encode, is rejected before
anything is drawn, and nothing else that ciphers and handlers do draws at all. -/

namespace Strongbox

/-! ## Encryption -/

/-- The value that holds an envelope. -/
def EnvelopeForm.holding : EnvelopeForm → Bytes → Value
  | octets, e => .ofBytes e
  | text marker, e | printed _ marker, e => .text (marker ++ Base64.encode e)

namespace Sealing

/-- Why a value is rejected that comes to no plaintext: it has the wrong type, or is a text that no
octets encode. -/
def rejection (s : Sealing) : Misuse :=
  match s.form, s.value with
  | .octets, v => .notBytesLike v.typeName
  | .text _, .brokenText _ | .printed _ _, .brokenText _ => .unencodable
  | .text _, _ | .printed _ _, _ => .notText

/-- What an encryption comes to that finds the source `e`. -/
def envelope (s : Sealing) (e : Entropy) : Except Abort Bytes :=
  match s.form.plaintext? s.value with
  | none => .error (.misuse s.rejection)
  | some plaintext =>
    (s.cipher.seal? (s.act e).octets plaintext).mapError fun f =>
      if f.failsEncryption then .failure (.encryption f) else f.abort

/-- The task is the encryption that is asked for: it hands over the envelope and draws no more than
its vector. -/
structure Describes (s : Sealing) (t : Task Value) : Prop where
  result : ∀ a, (lead t a).1 = (s.envelope a.entropy).map s.form.holding
  source : ∀ a, entropy (lead t a).2 = (s.act a.entropy).left

variable {s : Sealing} {e : Entropy}

theorem drawn?_eq_some {plaintext : Bytes} (h : s.form.plaintext? s.value = some plaintext) :
    (s.act e).deed.drawn? = some Envelope.ivSize := by
  simp [act, Deed.drawn?, h]

theorem octets_eq_draw {plaintext : Bytes} (h : s.form.plaintext? s.value = some plaintext) :
    (s.act e).octets = (e.draw Envelope.ivSize).1 :=
  Act.octets_eq_draw (drawn?_eq_some h)

theorem envelope_of_rejected (h : s.form.plaintext? s.value = none) :
    s.envelope e = .error (.misuse s.rejection) := by
  rw [envelope, h]

/-- Every envelope begins with the segment that was read for it. -/
theorem take_of_envelope_eq_ok {x : Bytes} (h : s.envelope e = .ok x) :
    x.take Envelope.ivSize = (s.act e).octets := by
  unfold envelope at h
  split at h
  · cases h
  · rename_i plaintext hplaintext
    have hlen : ((s.act e).octets).length = Envelope.ivSize := by
      rw [octets_eq_draw hplaintext, Entropy.length_draw]
    unfold Cipher.seal? at h
    split at h
    · cases h
    · split at h
      · cases h
      · cases h
        rw [Envelope.close, ← hlen, List.take_left]

end Sealing

namespace Cipher

variable (c : Cipher)

theorem encrypt_result (v : Value) (a : Ambient) :
    (lead (c.encrypt v) a).1 = (Sealing.mk c .octets v).envelope a.entropy := by
  cases v with
  | bytes kind bs =>
      unfold Sealing.envelope
      dsimp only [EnvelopeForm.plaintext?]
      rw [Sealing.octets_eq_draw rfl]
      simp only [encrypt, Task.draw, lead_bind, lead_modifyGet]
      generalize c.seal? (a.entropy.draw Envelope.ivSize).1 bs = sealed
      cases sealed with
      | ok x => rfl
      | error f =>
          change _ =
            Except.error (if f.failsEncryption then Abort.failure (.encryption f) else f.abort)
          by_cases hf : f.failsEncryption <;> simp [hf, Task.log, Task.fail]
  | _ => rfl

theorem encrypt_source (v : Value) (a : Ambient) :
    entropy (lead (c.encrypt v) a).2 = ((Sealing.mk c .octets v).act a.entropy).left := by
  cases v with
  | bytes kind bs =>
      simp only [encrypt, Task.draw, lead_bind, lead_modifyGet]
      cases c.seal? (a.entropy.draw Envelope.ivSize).1 bs with
      | ok x => rfl
      | error f => by_cases hf : f.failsEncryption <;> simp [hf, Task.log, Task.fail] <;> rfl
  | _ => rfl

theorem encryptText_result (marker : String) (v : Value) (a : Ambient) :
    (lead (c.encryptText v) a).1 =
      ((Sealing.mk c (.text marker) v).envelope a.entropy).map Base64.encode := by
  cases v with
  | text s =>
      rw [encryptText, bind_pure_comp, lead_map, encrypt_result]
      rfl
  | _ => rfl

theorem encryptText_source (marker : String) (v : Value) (a : Ambient) :
    entropy (lead (c.encryptText v) a).2 =
      ((Sealing.mk c (.text marker) v).act a.entropy).left := by
  cases v with
  | text s =>
      rw [encryptText, bind_pure_comp, lead_map, encrypt_source]
      rfl
  | _ => rfl

end Cipher

/-- The form in which a conversion hands over envelopes, if it encrypts. -/
def Conversion.form? (marker : String) : Conversion → Option EnvelopeForm
  | encryptText => some (.text marker)
  | encryptBytes => some .octets
  | decryptText | decryptBytes => none

section

variable {form : EnvelopeForm} {conversion : Conversion}

theorem Sealing.Describes.of_encryptText {c : Cipher} {marker : String} {v : Value}
    {t : Task String} (ht : t = (marker ++ ·) <$> c.encryptText v) :
    Describes ⟨c, .text marker, v⟩ (.text <$> t) := by
  subst ht
  refine ⟨fun a => ?_, fun a => ?_⟩
  · rw [lead_map, lead_map, c.encryptText_result marker]
    cases envelope _ _ <;> rfl
  · rw [lead_map, lead_map, c.encryptText_source marker]

theorem Sealing.Describes.of_encrypt (c : Cipher) (v : Value) :
    Describes ⟨c, .octets, v⟩ (.ofBytes <$> c.encrypt v) := by
  refine ⟨fun a => ?_, fun a => ?_⟩
  · rw [lead_map, c.encrypt_result]
    rfl
  · rw [lead_map, c.encrypt_source]

theorem Handler.describes_encryptText (h : Handler) (v : Value) :
    Sealing.Describes ⟨h.cipher, .text h.marker, v⟩ (.text <$> h.encryptText v) := by
  refine .of_encryptText ?_
  rw [encryptText, bind_pure_comp]

theorem Handler.encryptText_result (h : Handler) (front text : String) (a : Ambient) :
    (lead (h.encryptText (.text text)) a).1 =
      ((Sealing.mk h.cipher (.printed front h.marker) (.text text)).envelope a.entropy).map
        fun x => h.marker ++ Base64.encode x := by
  rw [encryptText, bind_pure_comp, lead_map, h.cipher.encryptText_result h.marker]
  change Except.map _ (Except.map _ ((Sealing.mk h.cipher (.printed front h.marker)
    (.text text)).envelope a.entropy)) = _
  cases (Sealing.mk h.cipher (.printed front h.marker) (.text text)).envelope a.entropy <;> rfl

theorem Handler.encryptText_source (h : Handler) (front text : String) (a : Ambient) :
    entropy (lead (h.encryptText (.text text)) a).2 =
      ((Sealing.mk h.cipher (.printed front h.marker) (.text text)).act a.entropy).left := by
  rw [encryptText, bind_pure_comp, lead_map, h.cipher.encryptText_source h.marker]
  rfl

theorem Handler.describes_convert (h : Handler) (hform : conversion.form? h.marker = some form)
    (v : Value) : Sealing.Describes ⟨h.cipher, form, v⟩ (h.convert conversion v) := by
  cases conversion with
  | encryptText =>
      obtain rfl := Option.some.inj hform
      rw [convert, bind_pure_comp]
      exact h.describes_encryptText v
  | encryptBytes =>
      obtain rfl := Option.some.inj hform
      rw [convert, bind_pure_comp]
      exact .of_encrypt h.cipher v
  | decryptText => cases hform
  | decryptBytes => cases hform

/-- A cipher adds no marker. -/
theorem Cipher.describes_convert (c : Cipher) (hform : conversion.form? "" = some form)
    (v : Value) : Sealing.Describes ⟨c, form, v⟩ (c.convert conversion v) := by
  cases conversion with
  | encryptText =>
      obtain rfl := Option.some.inj hform
      rw [convert, bind_pure_comp]
      refine .of_encryptText ?_
      simp only [String.empty_append, id_map']
  | encryptBytes =>
      obtain rfl := Option.some.inj hform
      rw [convert, bind_pure_comp]
      exact .of_encrypt c v
  | decryptText => cases hform
  | decryptBytes => cases hform

theorem Attribute.describes_store (h : Handler) {v : Value} (hv : v ≠ .null) :
    Sealing.Describes ⟨h.cipher, .text h.marker, v⟩ (Attribute.store h v) := by
  rw [store, bind_pure_comp]
  · exact h.describes_encryptText v
  · exact hv

end

/-! ## Decryption -/

namespace Leaves

theorem log (level : Level) (message : String) : Silent (Task.log level message) :=
  fun _ => rfl

theorem fail {α : Type} (f : Failure) : Silent (Task.fail f : Task α) :=
  .throw _

theorem reject {α : Type} (m : Misuse) : Silent (Task.reject m : Task α) :=
  .throw _

/-- A fresh key comes from a generator of its own. -/
theorem generate (size : Nat) : Silent (Task.generate size) :=
  fun _ => rfl

end Leaves

namespace Cipher

variable (c : Cipher)

theorem silent_liftExcept (r : Except Abort Cipher) : Silent (make.liftExcept r) :=
  fun _ => rfl

theorem silent_make (v : Value) : Silent (make v) := by
  unfold make
  split
  · exact (Leaves.generate _).bind fun _ => silent_liftExcept _
  · exact silent_liftExcept _

theorem silent_decryptBytes (envelope : Bytes) : Silent (c.decryptBytes envelope) := by
  unfold decryptBytes
  split
  · exact .pure _
  · exact .ite ((Leaves.log _ _).bind fun _ => .fail _) (.throw _)

theorem silent_decrypt (v : Value) : Silent (c.decrypt v) := by
  unfold decrypt
  split
  · exact .reject _
  · refine .ite (.fail _) ?_
    split
    · exact .reject _
    · exact c.silent_decryptBytes _

theorem silent_decryptText (v : Value) : Silent (c.decryptText v) := by
  unfold decryptText
  split
  · exact .reject _
  · exact .fail _
  · refine (c.silent_decrypt _).bind fun plaintext => ?_
    split
    · exact .pure _
    · exact .fail _

theorem silent_convert {conversion : Conversion} {marker : String}
    (hform : conversion.form? marker = none) (v : Value) : Silent (c.convert conversion v) := by
  cases conversion with
  | encryptText => cases hform
  | encryptBytes => cases hform
  | decryptText => exact (c.silent_decryptText v).bind fun _ => .pure _
  | decryptBytes => exact (c.silent_decrypt v).bind fun _ => .pure _

end Cipher

namespace Handler

variable (h : Handler)

theorem silent_make (c : Cipher) (marker : String) : Silent (make c marker) :=
  (Leaves.log _ _).bind fun _ => .pure _

theorem silent_decryptText (v : Value) : Silent (h.decryptText v) := by
  unfold decryptText
  split
  · exact (h.cipher.silent_decryptText _).bind fun _ => .pure _
  · exact .pure _

theorem silent_convert {conversion : Conversion} {marker : String}
    (hform : conversion.form? marker = none) (v : Value) : Silent (h.convert conversion v) := by
  cases conversion with
  | encryptText => cases hform
  | encryptBytes => cases hform
  | decryptText => exact h.silent_decryptText v
  | decryptBytes => exact (h.cipher.silent_decrypt v).bind fun _ => .pure _

theorem silent_restore (v : Value) : Silent (Attribute.restore h v) := by
  unfold Attribute.restore
  split
  · exact .pure _
  · exact h.silent_decryptText v

theorem silent_decryptEntries (seen : List String) (entries : List (String × Value)) :
    Silent (Properties.decryptEntries h seen entries) := by
  induction entries generalizing seen with
  | nil => exact .pure _
  | cons entry rest ih =>
      unfold Properties.decryptEntries
      refine .ite (ih seen) ?_
      split
      · exact ih _
      · exact (h.cipher.silent_decryptText _).bind fun _ => (ih _).bind fun _ => .pure _

theorem silent_decrypt (sources : List Source) : Silent (Properties.decrypt h sources) := by
  refine (h.silent_decryptEntries _ _).bind fun decrypted => ?_
  exact .ite ((Leaves.log _ _).bind fun _ => .pure _) (.pure _)

theorem silent_build (sources : List Source) : Silent (PropertyView.build h sources) :=
  (h.silent_decrypt sources).bind fun _ => .pure _

end Handler

end Strongbox
