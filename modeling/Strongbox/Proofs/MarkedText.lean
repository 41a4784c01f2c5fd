import Mathlib.Algebra.Order.Floor.Div
import Mathlib.GroupTheory.GroupAction.Ring
import Strongbox.Attribute
import Strongbox.Proofs.Base64
import Strongbox.Proofs.ByteEnvelope

/-! # Marked text

A marked text is the marker followed by the Base64 of an envelope, and a handler with the same key
and marker gets the text back from it. Everything else passes through a handler as it is. -/

namespace Strongbox

theorem Utf8.length_encode (text : String) : (Utf8.encode text).length = text.utf8ByteSize :=
  rfl

namespace Cipher

variable {c : Cipher}

theorem perform_encryptText (hc : c.fault = none) {text : String}
    (hsize : text.utf8ByteSize ≤ maxPlaintext) (a : Ambient) :
    perform (c.encryptText (.text text)) a =
      (.ok (Base64.encode
          (Envelope.close c.key (a.entropy.draw Envelope.ivSize).1 (Utf8.encode text))),
        { a with entropy := (a.entropy.draw Envelope.ivSize).2 }) := by
  have hsize' : (Utf8.encode text).length ≤ maxPlaintext := hsize
  rw [encryptText, bind_pure_comp, perform_map, Value.ofBytes, perform_encrypt hc hsize']
  rfl

/-- A text comes back from the Base64 of any envelope that holds its octets. -/
theorem perform_decryptText_encode (hc : c.fault = none) {iv : Bytes}
    (hiv : iv.length = Envelope.ivSize) (text : String) (a : Ambient) :
    perform (c.decryptText
        (.text (Base64.encode (Envelope.close c.key iv (Utf8.encode text))))) a =
      (.ok text, a) := by
  have hlen := Envelope.length_close c.key hiv (Utf8.encode text)
  have hd : perform (c.decrypt (.ofBytes (Envelope.close c.key iv (Utf8.encode text)))) a =
      (.ok (Utf8.encode text), a) := by
    rw [Value.ofBytes, perform_decrypt_eq_ok_iff hc]
    exact ⟨hlen ▸ Nat.le_add_left 28 _, Envelope.open?_close c.key hiv _, rfl⟩
  simp only [decryptText, encodedEnvelope, Base64.encode, String.toList_ofList,
    Base64.decode_encodeChars, perform_bind, hd, Utf8.decode_encode, perform_pure]

end Cipher

namespace Handler

variable {h : Handler}

/-! ## The marker -/

theorem drop_marker (rest : List Char) :
    (h.marker.toList ++ rest).drop h.marker.length = rest := by
  rw [← String.length_toList, List.drop_left]

theorem marked?_append (encoded : String) :
    h.marked? (.text (h.marker ++ encoded)) = some (.text encoded) := by
  have hprefix : h.marker.toList.isPrefixOf (h.marker ++ encoded).toList = true := by
    rw [List.isPrefixOf_iff_prefix, String.toList_append]
    exact List.prefix_append _ _
  rw [marked?, if_pos hprefix, String.toList_append, drop_marker, String.ofList_toList]

/-- A marked value is a text of either kind, and so is what follows the marker. -/
theorem of_marked? {v w : Value} (hv : h.marked? v = some w) :
    (∃ encoded, v = .text (h.marker ++ encoded) ∧ w = .text encoded) ∨
      ∃ encoded : BrokenText,
        v = .brokenText (encoded.behind h.marker) ∧ w = .brokenText encoded := by
  cases v with
  | text s =>
      rw [marked?] at hv
      split at hv
      · rename_i hprefix
        obtain ⟨rest, hrest⟩ := List.isPrefixOf_iff_prefix.mp hprefix
        refine .inl ⟨_, ?_, (Option.some.inj hv).symm⟩
        rw [Value.text.injEq, ← String.toList_inj, String.toList_append, String.toList_ofList,
          ← hrest, drop_marker]
      · cases hv
  | brokenText t =>
      obtain ⟨rest, hrest, rfl⟩ := Option.map_eq_some_iff.mp hv
      exact .inr ⟨rest, congrArg _ (BrokenText.after?_eq_some_iff.mp hrest), rfl⟩
  | _ => cases hv

theorem isMarked_append (encoded : String) : h.isMarked (.text (h.marker ++ encoded)) = true := by
  rw [isMarked, marked?_append]
  rfl

theorem marked?_eq_none {v : Value} (hv : ∀ encoded, v ≠ .text (h.marker ++ encoded))
    (hbroken : ∀ encoded : BrokenText, v ≠ .brokenText (encoded.behind h.marker)) :
    h.marked? v = none := by
  rw [Option.eq_none_iff_forall_ne_some]
  intro w hw
  obtain ⟨encoded, heq, -⟩ | ⟨encoded, heq, -⟩ := of_marked? hw
  · exact hv encoded heq
  · exact hbroken encoded heq

/-! ## Handlers and attributes -/

theorem perform_encryptText (hc : h.cipher.fault = none) {text : String}
    (hsize : text.utf8ByteSize ≤ Cipher.maxPlaintext) (a : Ambient) :
    perform (h.encryptText (.text text)) a =
      (.ok (h.marker ++ Base64.encode
          (Envelope.close h.cipher.key (a.entropy.draw Envelope.ivSize).1 (Utf8.encode text))),
        { a with entropy := (a.entropy.draw Envelope.ivSize).2 }) := by
  rw [encryptText, bind_pure_comp, perform_map, Cipher.perform_encryptText hc hsize]
  rfl

theorem perform_encryptText_of_lt (hc : h.cipher.fault = none) {text : String}
    (hlong : Cipher.maxPlaintext < text.utf8ByteSize) (a : Ambient) :
    (perform (h.encryptText (.text text)) a).1 =
      .error (.failure (.encryption Cipher.tooLong)) := by
  have hlong' : Cipher.maxPlaintext < (Utf8.encode text).length := hlong
  rw [encryptText, bind_pure_comp, perform_map, Cipher.encryptText, bind_pure_comp, perform_map,
    Value.ofBytes, Cipher.perform_encrypt_of_lt hc hlong']
  rfl

theorem perform_decryptText_append (encoded : String) (a : Ambient) :
    perform (h.decryptText (.text (h.marker ++ encoded))) a =
      ((perform (h.cipher.decryptText (.text encoded)) a).1.map .text,
        (perform (h.cipher.decryptText (.text encoded)) a).2) := by
  rw [decryptText, marked?_append]
  exact perform_map _ _ _

theorem decryptText_of_unmarked {v : Value} (hv : ∀ encoded, v ≠ .text (h.marker ++ encoded))
    (hbroken : ∀ encoded : BrokenText, v ≠ .brokenText (encoded.behind h.marker)) :
    h.decryptText v = pure v := by
  rw [decryptText, marked?_eq_none hv hbroken]

theorem perform_store_text (hc : h.cipher.fault = none) {text : String}
    (hsize : text.utf8ByteSize ≤ Cipher.maxPlaintext) (a : Ambient) :
    perform (Attribute.store h (.text text)) a =
      (.ok (.text (h.marker ++ Base64.encode
          (Envelope.close h.cipher.key (a.entropy.draw Envelope.ivSize).1 (Utf8.encode text)))),
        { a with entropy := (a.entropy.draw Envelope.ivSize).2 }) := by
  rw [Attribute.store, bind_pure_comp, perform_map, perform_encryptText hc hsize]
  · rfl
  · nofun

theorem restore_eq_decryptText (h : Handler) (v : Value) :
    Attribute.restore h v = h.decryptText v := by
  cases v <;> rfl

/-- Text that a handler marks is canonical Base64 behind the marker, and whoever has the same key
and marker reads it back, directly or as a stored attribute. What is not marked is returned as it
is, whatever the cipher does, without a draw and without a record. -/
theorem decryptText_marked_and_unmarked (k : Key) (marker : String) :
    let h : Handler := { cipher := { key := k }, marker }
    (∀ (t : String) (a b : Ambient) (h' : Handler), t.utf8ByteSize + 28 ≤ 2 ^ 31 - 1 →
      h'.cipher = { key := k } → h'.marker = marker →
        ∃ encoded : String,
          perform (h.encryptText (.text t)) a =
            (.ok (marker ++ encoded), { a with entropy := (a.entropy.draw 12).2 }) ∧
          Base64.Canonical encoded.toList ∧
          encoded.length = 4 * ((t.utf8ByteSize + 28) ⌈/⌉ 3) ∧
          h.isMarked (.text (marker ++ encoded)) = true ∧
          perform (h'.decryptText (.text (marker ++ encoded))) b = (.ok (.text t), b)) ∧
    (∀ (v : Value) (a b : Ambient),
      (v = .null ∨ ∃ t : String, v = .text t ∧ t.utf8ByteSize + 28 ≤ 2 ^ 31 - 1) →
        ∃ stored a', perform (Attribute.store h v) a = (.ok stored, a') ∧
          perform (Attribute.restore h stored) b = (.ok v, b)) ∧
    (∀ (c : Cipher) (v : Value) (a : Ambient), (∀ encoded, v ≠ .text (marker ++ encoded)) →
      (∀ encoded : BrokenText, v ≠ .brokenText (encoded.behind marker)) →
      perform (decryptText { cipher := c, marker } v) a = (.ok v, a) ∧
        perform (Attribute.restore { cipher := c, marker } v) a = (.ok v, a)) := by
  intro h
  have hmax : ∀ t : String, t.utf8ByteSize + 28 ≤ 2 ^ 31 - 1 →
      t.utf8ByteSize ≤ Cipher.maxPlaintext := by
    intro t ht
    rw [Cipher.maxPlaintext_eq]
    omega
  have hread : ∀ (t : String) (a b : Ambient),
      perform (h.decryptText (.text (marker ++ Base64.encode
        (Envelope.close k (a.entropy.draw 12).1 (Utf8.encode t))))) b = (.ok (.text t), b) := by
    intro t a b
    have hd := Cipher.perform_decryptText_encode (c := h.cipher) rfl
      (Entropy.length_draw a.entropy Envelope.ivSize) t b
    have happ := perform_decryptText_append (h := h) (Base64.encode
      (Envelope.close k (a.entropy.draw Envelope.ivSize).1 (Utf8.encode t))) b
    rw [hd] at happ
    exact happ
  refine ⟨?_, ?_, ?_⟩
  · rintro t a b ⟨c, m⟩ ht (rfl : c = _) (rfl : m = _)
    refine ⟨_, perform_encryptText rfl (hmax t ht) a, ?_, ?_, isMarked_append _, hread t a b⟩
    · rw [Base64.encode, String.toList_ofList]
      exact Base64.canonical_encodeChars _
    · have hiv := Entropy.length_draw a.entropy Envelope.ivSize
      rw [Base64.encode, ← String.length_toList, String.toList_ofList, Base64.length_encodeChars,
        Envelope.length_close _ hiv, Utf8.length_encode, Nat.ceilDiv_eq_add_pred_div]
      rfl
  · rintro v a b (rfl | ⟨t, rfl, ht⟩)
    · exact ⟨.null, a, rfl, rfl⟩
    · refine ⟨_, _, perform_store_text rfl (hmax t ht) a, ?_⟩
      rw [restore_eq_decryptText]
      exact hread t a b
  · intro c v a hv hbroken
    rw [restore_eq_decryptText, decryptText_of_unmarked hv hbroken]
    exact ⟨rfl, rfl⟩

/-- A text that opens with the marker itself, and one that merely resembles a marked one. -/
theorem decryptText_marked_and_unmarked_euro :
    let h : Handler :=
      { cipher := { key := ⟨List.replicate 32 0, by decide⟩ }, marker := standardMarker }
    let a : Ambient := ⟨.ofBytes [1, 2, 3], .ofBytes [], []⟩
    (∃ encoded : String,
      perform (h.encryptText (.text "\x7bAES256\x7d€")) a =
        (.ok (standardMarker ++ encoded), { a with entropy := (a.entropy.draw 12).2 }) ∧
      encoded.length = 52 ∧
      perform (h.decryptText (.text (standardMarker ++ encoded))) a =
        (.ok (.text "\x7bAES256\x7d€"), a)) ∧
    (∃ stored a', perform (Attribute.store h (.text "\x7bAES256\x7d€")) a = (.ok stored, a') ∧
      perform (Attribute.restore h stored) a = (.ok (.text "\x7bAES256\x7d€"), a)) ∧
    perform (h.decryptText (.text "\x7baes256\x7d")) a = (.ok (.text "\x7baes256\x7d"), a) := by
  intro h a
  obtain ⟨htext, hattribute, hplain⟩ :=
    decryptText_marked_and_unmarked ⟨List.replicate 32 0, by decide⟩ standardMarker
  have hsize : "\x7bAES256\x7d€".utf8ByteSize + 28 ≤ 2 ^ 31 - 1 := by decide +kernel
  obtain ⟨encoded, he, -, hlen, -, hd⟩ := htext _ a a h hsize rfl rfl
  refine ⟨⟨encoded, he, hlen.trans (by decide +kernel), hd⟩, ?_, ?_⟩
  · exact hattribute _ a a (.inr ⟨_, rfl, hsize⟩)
  · refine (hplain h.cipher (.text "\x7baes256\x7d") a ?_ fun _ => nofun).1
    intro rest heq
    have hchars := congrArg String.toList (Value.text.inj heq)
    simp [standardMarker, String.toList_append] at hchars

end Handler

end Strongbox
