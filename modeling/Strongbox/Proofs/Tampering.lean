import Strongbox.Proofs.Aes
import Strongbox.Proofs.ByteEnvelope
import Strongbox.Proofs.Gcm.Tag

/-! # Altered envelopes

An envelope is a vector, a ciphertext in blocks of sixteen octets, and a tag. If it is changed in
only one of these parts, within one block of the ciphertext, then it no longer opens. This needs a
subkey of the hash that is not zero, and nothing about the plaintext or the vector. -/

namespace Strongbox

/-! ## Changes within a range -/

/-- Byte strings of one length that differ at most in the octets from `start` up to `stop`. -/
structure DifferWithin (start stop : ℕ) (a b : Bytes) : Prop where
  length_eq : a.length = b.length
  getElem?_eq : ∀ i, i < start ∨ stop ≤ i → a[i]? = b[i]?

namespace DifferWithin

variable {start stop : ℕ} {a a' b b' : Bytes}

theorem eq_of_stop_le (h : DifferWithin start stop a b) (hle : stop ≤ start) : a = b := by
  apply List.ext_getElem?
  intro i
  exact h.getElem?_eq i (by omega)

theorem eq_of_length_le (h : DifferWithin start stop a b) (hle : a.length ≤ start) : a = b := by
  apply List.ext_getElem?
  intro i
  by_cases hi : i < start
  · exact h.getElem?_eq i (.inl hi)
  · have hlen := h.length_eq
    rw [List.getElem?_eq_none (by omega), List.getElem?_eq_none (by omega)]

theorem take_eq (h : DifferWithin start stop a b) {n : ℕ} (hn : n ≤ start) :
    a.take n = b.take n := by
  apply List.ext_getElem?
  intro i
  rw [List.getElem?_take, List.getElem?_take]
  split
  · exact h.getElem?_eq i (by omega)
  · rfl

theorem drop_eq (h : DifferWithin start stop a b) {n : ℕ} (hn : stop ≤ n) :
    a.drop n = b.drop n := by
  apply List.ext_getElem?
  intro i
  rw [List.getElem?_drop, List.getElem?_drop]
  exact h.getElem?_eq (n + i) (by omega)

theorem left (h : DifferWithin start stop (a ++ b) (a' ++ b')) (hlen : a.length = a'.length) :
    DifferWithin start stop a a' where
  length_eq := hlen
  getElem?_eq i hi := by
    by_cases hlt : i < a.length
    · have hboth := h.getElem?_eq i hi
      rwa [List.getElem?_append_left hlt, List.getElem?_append_left (hlen ▸ hlt)] at hboth
    · rw [List.getElem?_eq_none (by omega), List.getElem?_eq_none (by omega)]

theorem right (h : DifferWithin start stop (a ++ b) (a' ++ b')) (hlen : a.length = a'.length) :
    DifferWithin (start - a.length) (stop - a.length) b b' where
  length_eq := by
    have hboth := h.length_eq
    rw [List.length_append, List.length_append] at hboth
    omega
  getElem?_eq i hi := by
    have hboth := h.getElem?_eq (a.length + i) (by omega)
    rwa [List.getElem?_append_right (by omega), List.getElem?_append_right (by omega), hlen,
      Nat.add_sub_cancel_left] at hboth

theorem set {i : ℕ} (a : Bytes) (b : UInt8) (hstart : start ≤ i) (hstop : i < stop) :
    DifferWithin start stop a (a.set i b) where
  length_eq := List.length_set.symm
  getElem?_eq j hj := (List.getElem?_set_ne (by omega)).symm

end DifferWithin

/-! ## Envelopes that open -/

namespace Envelope

theorem permute_eq (k : Key) (x : Gcm.Block) :
    permute k x = .ofBytes (Aes.encrypt (Aes.schedule k) (.ofBytes x.toBytes)).toBytes :=
  rfl

theorem permute_injective (k : Key) : Function.Injective (permute k) := by
  intro x y h
  rw [permute_eq, permute_eq] at h
  have hout := Gcm.Block.eq_of_ofBytes_eq
    (by rw [Aes.State.length_toBytes, Aes.State.length_toBytes])
    (Aes.State.length_toBytes _).le h
  have hin := congrArg Aes.State.toBytes
    (Aes.encrypt_injective _ (Aes.State.toBytes_injective hout))
  rw [Aes.State.toBytes_ofBytes (Gcm.Block.length_toBytes x),
    Aes.State.toBytes_ofBytes (Gcm.Block.length_toBytes y)] at hin
  exact Gcm.Block.toBytes_injective hin

/-- A ciphertext between its vector and its tag. -/
def assemble (k : Key) (iv ciphertext : Bytes) : Bytes :=
  iv ++ (ciphertext ++ (Gcm.tag (permute k) iv ciphertext).toBytes)

theorem close_eq_assemble (k : Key) (iv plaintext : Bytes) :
    close k iv plaintext = assemble k iv (Gcm.stream (permute k) iv plaintext) :=
  rfl

/-- The parts of an envelope for a plaintext of `size` octets, each from its first octet up to the
one after its last. The last block may be shorter than the others. -/
inductive Part (size : ℕ) : ℕ → ℕ → Prop
  | vector : Part size 0 12
  | block (j : ℕ) : 16 * j < size → Part size (12 + 16 * j) (12 + min (16 * (j + 1)) size)
  | tag : Part size (12 + size) (12 + size + 16)

/-- Every octet is in a part. -/
theorem exists_part {size i : ℕ} (hi : i < size + 28) :
    ∃ start stop, Part size start stop ∧ start ≤ i ∧ i < stop := by
  by_cases hvector : i < 12
  · exact ⟨_, _, .vector, Nat.zero_le i, hvector⟩
  · by_cases htag : 12 + size ≤ i
    · exact ⟨_, _, .tag, htag, by omega⟩
    · exact ⟨_, _, .block ((i - 12) / 16) (by omega), by omega, by omega⟩

variable {k : Key}

/-- Two envelopes with correct tags do not differ within a single part. -/
theorem eq_of_assemble_differ (hkey : permute k 0 ≠ 0) {iv iv' c c' : Bytes} {start stop : ℕ}
    (hiv : iv.length = 12) (hiv' : iv'.length = 12) (hc : c.length = c'.length)
    (hpart : Part c.length start stop)
    (hdiffer : DifferWithin start stop (assemble k iv c) (assemble k iv' c')) :
    assemble k iv c = assemble k iv' c' := by
  have hvector := hdiffer.left (hiv.trans hiv'.symm)
  have hrest := hdiffer.right (hiv.trans hiv'.symm)
  rw [hiv] at hrest
  have hciphertext := hrest.left hc
  have htag := hrest.right hc
  cases hpart with
  | vector =>
      obtain rfl := hciphertext.eq_of_stop_le (by omega)
      have heq := Gcm.Block.toBytes_injective (htag.eq_of_stop_le (by omega))
      rw [Gcm.eq_of_tag_eq_of_vector (permute_injective k) hiv hiv' heq]
  | block j _ =>
      obtain rfl := hvector.eq_of_length_le (by omega)
      have heq := Gcm.Block.toBytes_injective (htag.eq_of_stop_le (by omega))
      rw [Gcm.eq_of_tag_eq_of_block hkey heq hc j (hciphertext.take_eq (by omega))
        (hciphertext.drop_eq (by omega))]
  | tag =>
      obtain rfl := hvector.eq_of_length_le (by omega)
      obtain rfl := hciphertext.eq_of_length_le (by omega)
      rfl

/-- Of the byte strings that differ from an envelope within one part, none opens. -/
theorem open?_altered (hkey : permute k 0 ≠ 0) {iv plaintext altered : Bytes} {start stop : ℕ}
    (hiv : iv.length = ivSize) (hpart : Part plaintext.length start stop)
    (hdiffer : DifferWithin start stop (close k iv plaintext) altered)
    (hne : altered ≠ close k iv plaintext) : open? k altered = none := by
  rw [Option.eq_none_iff_forall_ne_some]
  intro plaintext' hopen
  have hlen := length_close k hiv plaintext
  have hsize : ivSize ≤ altered.length := by
    rw [← hdiffer.length_eq, hlen, ivSize]
    omega
  have hlen' := length_of_open?_eq_some k hsize hopen
  rw [← hdiffer.length_eq, hlen, Nat.add_right_cancel_iff] at hlen'
  have haltered := (open?_eq_some_iff k).mp hopen
  rw [haltered, close_eq_assemble, close_eq_assemble] at hdiffer hne
  refine hne (eq_of_assemble_differ hkey hiv ?_ ?_ ?_ hdiffer).symm
  · exact List.length_take_of_le hsize
  · rw [Gcm.length_stream, Gcm.length_stream, hlen']
  · rwa [Gcm.length_stream]

end Envelope

/-! ## Decryption -/

theorem xor_bit_ne (b : UInt8) {bit : ℕ} (hbit : bit < 8) : b ^^^ UInt8.ofNat (2 ^ bit) ≠ b := by
  have hbits : ∀ bit < 8, UInt8.ofNat (2 ^ bit) ≠ 0 := by decide
  intro h
  have hzero := congrArg (b ^^^ ·) h
  simp only [Aes.xor_xor_cancel_left, UInt8.xor_self] at hzero
  exact hbits bit hbit hzero

namespace Cipher

section

variable {c : Cipher} {iv plaintext envelope altered : Bytes}

theorem perform_decrypt_altered (hc : c.fault = none) (hkey : Envelope.permute c.key 0 ≠ 0)
    (hiv : iv.length = Envelope.ivSize) (henvelope : envelope = Envelope.close c.key iv plaintext)
    {start stop : ℕ} (hpart : Envelope.Part plaintext.length start stop)
    (hdiffer : DifferWithin start stop envelope altered) (hne : altered ≠ envelope)
    (kind : ByteKind) (a : Ambient) :
    perform (c.decrypt (.bytes kind altered)) a =
      (.error (.failure .decryption),
        a.record .debug s!"Decryption failed ({altered.length} byte envelope)") := by
  subst henvelope
  have hlong : ¬ altered.length < Failure.envelopeOverhead := by
    rw [← hdiffer.length_eq, Envelope.length_close c.key hiv]
    exact Nat.not_lt.mpr (Nat.le_add_left 28 _)
  rw [decrypt_bytes, if_neg hlong, perform_decryptBytes hc,
    Envelope.open?_altered hkey hiv hpart hdiffer hne]

theorem perform_decrypt_flipped (hc : c.fault = none) (hkey : Envelope.permute c.key 0 ≠ 0)
    (hiv : iv.length = Envelope.ivSize) (henvelope : envelope = Envelope.close c.key iv plaintext)
    {i bit : ℕ} (hi : i < envelope.length) (hbit : bit < 8) (kind : ByteKind) (a : Ambient) :
    perform (c.decrypt
        (.bytes kind (envelope.set i (envelope[i] ^^^ UInt8.ofNat (2 ^ bit))))) a =
      (.error (.failure .decryption),
        a.record .debug s!"Decryption failed ({envelope.length} byte envelope)") := by
  have hlen : envelope.length = plaintext.length + 28 :=
    henvelope ▸ Envelope.length_close c.key hiv plaintext
  obtain ⟨start, stop, hpart, hstart, hstop⟩ := Envelope.exists_part (hlen ▸ hi)
  have hne : envelope.set i (envelope[i] ^^^ UInt8.ofNat (2 ^ bit)) ≠ envelope := by
    intro heq
    have hoctet := List.getElem_of_eq heq (by rwa [List.length_set])
    rw [List.getElem_set_self] at hoctet
    exact xor_bit_ne _ hbit hoctet
  rw [perform_decrypt_altered hc hkey hiv henvelope hpart (.set _ _ hstart hstop) hne,
    List.length_set]

end

/-- Decryption refuses every byte string that differs from an envelope within one part, whatever
the vector and the plaintext; so it refuses an envelope with a single bit flipped. -/
theorem decrypt_altered (k : Key) (hkey : Envelope.permute k 0 ≠ 0) (kind kind' : ByteKind)
    (iv plaintext : Bytes) (a b : Ambient) (hsize : plaintext.length ≤ 2 ^ 31 - 29)
    (hiv : (a.entropy.draw 12).1 = iv) :
    let c : Cipher := { key := k }
    ∃ envelope,
      perform (c.encrypt (.bytes kind plaintext)) a =
        (.ok envelope, { a with entropy := (a.entropy.draw 12).2 }) ∧
      envelope.take 12 = iv ∧
      (∀ (start stop : ℕ) (altered : Bytes), Envelope.Part plaintext.length start stop →
        DifferWithin start stop envelope altered → altered ≠ envelope →
          perform (c.decrypt (.bytes kind' altered)) b =
            (.error (.failure .decryption),
              b.record .debug s!"Decryption failed ({altered.length} byte envelope)")) ∧
      (∀ (i bit : ℕ) (hi : i < envelope.length), bit < 8 →
        perform (c.decrypt (.bytes kind'
            (envelope.set i (envelope[i] ^^^ UInt8.ofNat (2 ^ bit))))) b =
          (.error (.failure .decryption),
            b.record .debug s!"Decryption failed ({envelope.length} byte envelope)")) := by
  intro c
  subst hiv
  have hmax : plaintext.length ≤ maxPlaintext := by
    rw [maxPlaintext_eq]
    omega
  have hiv := Entropy.length_draw a.entropy Envelope.ivSize
  refine ⟨_, perform_encrypt rfl hmax kind a, Envelope.take_close k hiv plaintext, ?_, ?_⟩
  · intro start stop altered hpart hdiffer hne
    exact perform_decrypt_altered (c := c) rfl hkey hiv rfl hpart hdiffer hne kind' b
  · intro i bit hi hbit
    exact perform_decrypt_flipped (c := c) rfl hkey hiv rfl hi hbit kind' b

theorem decrypt_altered_hello :
    let k : Key := ⟨List.replicate 32 0, by decide⟩
    let c : Cipher := { key := k }
    let a : Ambient := ⟨.ofBytes [1, 2, 3, 4, 5, 6, 7, 8, 9, 10, 11, 12], .ofBytes [], []⟩
    Envelope.permute k 0 ≠ 0 ∧
      ∃ envelope,
        perform (c.encrypt (.bytes .fixed [104, 101, 108, 108, 111])) a =
          (.ok envelope, { a with entropy := (a.entropy.draw 12).2 }) ∧
        ∀ (i bit : ℕ) (hi : i < envelope.length), bit < 8 →
          perform (c.decrypt (.bytes .fixed
              (envelope.set i (envelope[i] ^^^ UInt8.ofNat (2 ^ bit))))) a =
            (.error (.failure .decryption),
              a.record .debug s!"Decryption failed ({envelope.length} byte envelope)") := by
  intro k c a
  have hkey : Envelope.permute k 0 ≠ 0 := by decide +kernel
  obtain ⟨envelope, he, -, -, hflip⟩ :=
    decrypt_altered k hkey .fixed .fixed _ [104, 101, 108, 108, 111] a a (by norm_num) rfl
  exact ⟨hkey, envelope, he, hflip⟩

end Cipher

end Strongbox
