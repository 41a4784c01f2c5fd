import Mathlib.Data.Set.Card
import Strongbox.Proofs.Base64Reading
import Strongbox.Proofs.Keys.Material

/-! # The texts that spell a key

A text is a key if it is forty-three characters of the alphabet and one padding mark. Two digits of
the last character do not count, so every key is spelled in four ways; it is exported in the one
in which these digits are zeros. -/

namespace Strongbox

namespace Base64

/-! ## Characters -/

theorem symbol_injective : Function.Injective symbol := by
  intro s t h
  have hvalue := congrArg value? h
  rwa [value?_symbol, value?_symbol, Option.some.injEq] at hvalue

theorem isAscii_symbol (s : Sextet) : Cipher.isAscii (symbol s) = true := by
  revert s
  decide +kernel

/-- A text with other characters is not read. -/
theorem Reads.isAscii {cs : List Char} {bs : Bytes} (h : Reads cs bs) {c : Char} (hc : c ∈ cs) :
    Cipher.isAscii c = true := by
  obtain ⟨groups, k, rfl, -⟩ := h
  rcases List.mem_append.mp hc with hc | hc
  · obtain ⟨s, -, rfl⟩ := List.mem_map.mp hc
    exact isAscii_symbol s
  · rw [List.eq_of_mem_replicate hc]
    rfl

theorem pad_not_mem_map_symbol (groups : List Sextet) : '=' ∉ groups.map symbol := by
  intro h
  obtain ⟨s, -, hs⟩ := List.mem_map.mp h
  exact symbol_ne_pad s hs

/-- Before a single padding mark, the canonical form leaves the digits empty that do not count. -/
theorem Canonical.last_mod {cs : List Char} (h : Canonical cs) {front : List Sextet} {last : Sextet}
    (hcs : cs = (front ++ [last]).map symbol ++ ['=']) : last.val % 4 = 0 := by
  induction h generalizing front with
  | nil => simp at hcs
  | one s t h =>
      have hcs' : [symbol s, symbol t, '='] ++ ['='] = (front ++ [last]).map symbol ++ ['='] := hcs
      obtain ⟨hsymbols, -⟩ := List.append_inj' hcs' rfl
      have hpad : '=' ∈ (front ++ [last]).map symbol := by
        rw [← hsymbols]
        simp
      exact absurd hpad (pad_not_mem_map_symbol _)
  | two s t u h =>
      have hcs' : [s, t, u].map symbol ++ ['='] = (front ++ [last]).map symbol ++ ['='] := hcs
      obtain ⟨hsymbols, -⟩ := List.append_inj' hcs' rfl
      have hgroups : [s, t] ++ [u] = front ++ [last] :=
        List.map_injective_iff.mpr symbol_injective hsymbols
      obtain ⟨-, hlast⟩ := List.append_inj' hgroups rfl
      rwa [← List.singleton_inj.mp hlast]
  | cons s t u v hrest ih =>
      -- Four characters come off both texts; a shorter text has a mark where the group ends.
      match front, hcs with
      | [], hcs => simp at hcs
      | [a], hcs => simp at hcs
      | [a, b], hcs => simp [symbol_ne_pad] at hcs
      | [a, b, c], hcs =>
          simp only [List.cons_append, List.nil_append, List.map_cons, List.map_nil,
            List.cons.injEq] at hcs
          rw [hcs.2.2.2.2] at hrest
          exact absurd rfl hrest.head?_ne_pad
      | a :: b :: c :: d :: front, hcs =>
          simp only [List.cons_append, List.map_cons, List.cons.injEq] at hcs
          exact ih hcs.2.2.2.2

/-! ## Digits -/

/-- The digits of a group, of which two come last. -/
theorem sextetDigits_eq (s : Sextet) :
    sextetDigits s = digits 4 (s.val / 4) ++ digits 2 (s.val % 4) := by
  have hlow : s.val % 4 < 2 ^ 2 := by omega
  rw [digits_append 4 _ hlow, sextetDigits]
  congr 1
  omega

end Base64

namespace Key

open Base64

/-! ## Spellings -/

/-- Forty-three characters of the alphabet and a padding mark, with a key in the first digits. -/
structure Spelling (s : String) (front : List Sextet) (last : Sextet) (k : Key) : Prop where
  length_front : front.length = 42
  chars : s.toList = (front ++ [last]).map symbol ++ ['=']
  digits : k.bytes.flatMap octetDigits = ((front ++ [last]).flatMap sextetDigits).take 256

variable {s : String} {front : List Sextet} {last : Sextet} {k : Key}

theorem length_digits_bytes (k : Key) : (k.bytes.flatMap octetDigits).length = 256 := by
  rw [length_flatMap_octetDigits, k.length_eq]

/-- Only forty-three groups hold thirty-two whole octets, and they take one padding mark. -/
theorem reads_iff_spelling : Reads s.toList k.bytes ↔ ∃ front last, Spelling s front last k := by
  constructor
  · rintro ⟨groups, pads, hs, hpadding, hlen, hprefix⟩
    rw [k.length_eq] at hlen
    obtain ⟨hgroups, rfl⟩ : groups.length = 43 ∧ pads = 1 := by
      unfold Padding at hpadding
      omega
    obtain rfl | ⟨front, last, rfl⟩ := List.eq_nil_or_concat' groups
    · cases hgroups
    · refine ⟨front, last, by simpa using hgroups, hs, ?_⟩
      rw [← length_digits_bytes k]
      exact List.prefix_iff_eq_take.mp hprefix
  · rintro ⟨front, last, hfront, hs, hdigits⟩
    have hgroups : (front ++ [last]).length = 43 := by simp [hfront]
    refine ⟨front ++ [last], 1, hs, ?_, ?_, ?_⟩
    · rw [hgroups]
      exact .inr (.inr (.inr ⟨rfl, rfl⟩))
    · rw [hgroups, k.length_eq]
    · rw [hdigits]
      exact List.take_prefix _ _

/-- Of the last group, the first four digits count. -/
theorem take_digits (hfront : front.length = 42) (last : Sextet) :
    ((front ++ [last]).flatMap sextetDigits).take 256 =
      front.flatMap sextetDigits ++ Base64.digits 4 (last.val / 4) := by
  have hcount : (front.flatMap sextetDigits ++ Base64.digits 4 (last.val / 4)).length = 256 := by
    rw [List.length_append, length_flatMap_sextetDigits, hfront, length_digits]
  rw [List.flatMap_append, List.flatMap_singleton, sextetDigits_eq, ← List.append_assoc, ← hcount,
    List.take_left]

namespace Spelling

variable {s' : String} {front' : List Sextet} {last' : Sextet}

/-- The characters of a text tell its last group. -/
theorem last_eq {k' : Key} (h : Spelling s front last k) (h' : Spelling s front' last' k') :
    last = last' := by
  have hchars := h.chars.symm.trans h'.chars
  obtain ⟨hsymbols, -⟩ := List.append_inj' hchars rfl
  have hgroups := List.map_injective_iff.mpr symbol_injective hsymbols
  obtain ⟨-, hlast⟩ := List.append_inj' hgroups rfl
  exact List.singleton_inj.mp hlast

/-- Two spellings of a key agree but for the two digits that do not count. -/
theorem agree (h : Spelling s front last k) (h' : Spelling s' front' last' k) :
    front = front' ∧ last.val / 4 = last'.val / 4 := by
  have hdigits := h.digits.symm.trans h'.digits
  rw [take_digits h.length_front, take_digits h'.length_front] at hdigits
  obtain ⟨hfront, hlast⟩ := List.append_inj' hdigits (by simp)
  have hlen := h.length_front.trans h'.length_front.symm
  have hlast4 := last.isLt
  have hlast4' := last'.isLt
  exact ⟨flatMap_sextetDigits_injective hlen hfront,
    digits_injective (by omega) (by omega) hlast⟩

theorem eq_of_mod_eq (h : Spelling s front last k) (h' : Spelling s' front' last' k)
    (hmod : last.val % 4 = last'.val % 4) : s = s' := by
  obtain ⟨rfl, hdiv⟩ := h.agree h'
  obtain rfl : last = last' := Fin.ext (by omega)
  exact String.toList_inj.mp (h.chars.trans h'.chars.symm)

/-- The text with other digits where they do not count. -/
theorem with_last (h : Spelling s front last k) (hdiv : last'.val / 4 = last.val / 4) :
    Spelling (String.ofList ((front ++ [last']).map symbol ++ ['='])) front last' k where
  length_front := h.length_front
  chars := String.toList_ofList
  digits := by rw [take_digits h.length_front, hdiv, ← take_digits h.length_front, h.digits]

end Spelling

/-! ## The exported text -/

theorem exists_spelling_encoded (k : Key) :
    ∃ front last, Spelling k.encoded front last k ∧ last.val % 4 = 0 := by
  have hchars : k.encoded.toList = encodeChars k.bytes := String.toList_ofList
  have hreads : Reads k.encoded.toList k.bytes := by
    rw [hchars, ← decode_eq_some_iff, decode_encodeChars]
  have hcanonical : Canonical k.encoded.toList := by
    rw [hchars]
    exact canonical_encodeChars k.bytes
  obtain ⟨front, last, h⟩ := reads_iff_spelling.mp hreads
  exact ⟨front, last, h, hcanonical.last_mod h.chars⟩

/-- The exported text is the one without digits that do not count. -/
theorem encoded_eq_iff (h : Spelling s front last k) : k.encoded = s ↔ last.val % 4 = 0 := by
  obtain ⟨front', last', h', hlast'⟩ := exists_spelling_encoded k
  constructor
  · rintro rfl
    rwa [h.last_eq h']
  · intro hlast
    exact h'.eq_of_mod_eq h (hlast'.trans hlast.symm)

/-- Two digits that do not count leave four texts for each key. -/
theorem ncard_spellings (k : Key) : {s | ∃ front last, Spelling s front last k}.ncard = 4 := by
  obtain ⟨front, last, h, -⟩ := exists_spelling_encoded k
  let group (low : Fin 4) : Sextet := ⟨last.val / 4 * 4 + low.val, by omega⟩
  let spelled (low : Fin 4) : String :=
    String.ofList ((front ++ [group low]).map symbol ++ ['='])
  have hspelled (low : Fin 4) : Spelling (spelled low) front (group low) k :=
    h.with_last (by simp only [group]; omega)
  have hrange : {s | ∃ front last, Spelling s front last k} = Set.range spelled := by
    ext s
    constructor
    · rintro ⟨front', last', h'⟩
      refine ⟨⟨last'.val % 4, by omega⟩, (hspelled _).eq_of_mod_eq h' ?_⟩
      simp only [group]
      omega
    · rintro ⟨low, rfl⟩
      exact ⟨front, group low, hspelled low⟩
  have hinjective : Function.Injective spelled := by
    intro low low' heq
    have hlow := hspelled low
    rw [heq] at hlow
    have hgroup : (group low).val = (group low').val :=
      congrArg Fin.val (hlow.last_eq (hspelled low'))
    exact Fin.ext (Nat.add_left_cancel hgroup)
  rw [hrange, ← Set.image_univ, Set.ncard_image_of_injective _ hinjective, Set.ncard_univ,
    Nat.card_eq_fintype_card, Fintype.card_fin]

end Key

/-! ## Texts as secrets -/

namespace Cipher

open Key

variable {s : String}

/-- Why a text is no key: it has characters outside the alphabet of all, it is not read, or it holds
another number of octets. -/
inductive Misspelled (s : String) : Failure → Prop
  | foreign {c : Char} : c ∈ s.toList → ¬ c.toNat < 128 → Misspelled s (.undecodableKey false)
  | malformed : (∀ c ∈ s.toList, c.toNat < 128) → (∀ bs, ¬ Base64.Reads s.toList bs) →
      Misspelled s (.undecodableKey true)
  | unfit {bs : Bytes} : Base64.Reads s.toList bs → bs.length ≠ 32 →
      Misspelled s (.keyLength bs.length)

theorem ofSecret_text_of_reads {bs : Bytes} (h : Base64.Reads s.toList bs) :
    ofSecret (.text s) = (ofKeyBytes bs).mapError .failure := by
  rw [ofSecret, Base64.decode_eq_some_iff.mpr h]

theorem ofSecret_text_of_not_reads (h : ∀ bs, ¬ Base64.Reads s.toList bs) :
    ofSecret (.text s) = .error (.failure (.undecodableKey (s.toList.all isAscii))) := by
  have hdecode : Base64.decode s.toList = none := by
    rw [Option.eq_none_iff_forall_ne_some]
    exact fun bs hbs => h bs (Base64.decode_eq_some_iff.mp hbs)
  rw [ofSecret, hdecode]

theorem ofSecret_text_eq_ok_iff {c : Cipher} :
    ofSecret (.text s) = .ok c ↔ c.fault = none ∧ ∃ front last, Spelling s front last c.key := by
  rw [← reads_iff_spelling]
  by_cases h : ∃ bs, Base64.Reads s.toList bs
  · obtain ⟨bs, hbs⟩ := h
    rw [ofSecret_text_of_reads hbs, mapError_ofKeyBytes_eq_ok_iff]
    refine and_congr_right fun _ => ⟨fun heq => heq ▸ hbs, fun hc => ?_⟩
    exact Option.some.inj ((Base64.decode_eq_some_iff.mpr hc).symm.trans
      (Base64.decode_eq_some_iff.mpr hbs))
  · rw [ofSecret_text_of_not_reads (not_exists.mp h)]
    constructor
    · nofun
    · rintro ⟨-, hc⟩
      exact absurd ⟨_, hc⟩ h

theorem ofSecret_text_of_misspelled {f : Failure} (h : Misspelled s f) :
    ofSecret (.text s) = .error (.failure f) := by
  cases h with
  | @foreign c hc hforeign =>
      have hnone : ∀ bs, ¬ Base64.Reads s.toList bs := fun bs hbs =>
        hforeign (of_decide_eq_true (hbs.isAscii hc))
      have hall : s.toList.all isAscii = false := by
        rw [List.all_eq_false]
        exact ⟨c, hc, by simpa [isAscii] using hforeign⟩
      rw [ofSecret_text_of_not_reads hnone, hall]
  | malformed hascii hnone =>
      have hall : s.toList.all isAscii = true := by
        rw [List.all_eq_true]
        exact fun c hc => decide_eq_true (hascii c hc)
      rw [ofSecret_text_of_not_reads hnone, hall]
  | unfit hreads hlen =>
      rw [ofSecret_text_of_reads hreads, ofKeyBytes_of_length_ne hlen]
      rfl

/-- A text that spells no key is refused for one of three reasons. -/
theorem exists_misspelled (h : ¬ ∃ c, ofSecret (.text s) = .ok c) : ∃ f, Misspelled s f := by
  by_cases hreads : ∃ bs, Base64.Reads s.toList bs
  · obtain ⟨bs, hbs⟩ := hreads
    refine ⟨_, .unfit hbs fun hlen => h ⟨{ key := ⟨bs, hlen⟩ }, ?_⟩⟩
    rw [ofSecret_text_of_reads hbs, ofKeyBytes_of_length hlen]
    rfl
  · by_cases hascii : ∀ c ∈ s.toList, c.toNat < 128
    · exact ⟨_, .malformed hascii (not_exists.mp hreads)⟩
    · push Not at hascii
      obtain ⟨c, hc, hforeign⟩ := hascii
      exact ⟨_, .foreign hc (Nat.not_lt.mpr hforeign)⟩

theorem ofSecret_text_eq_error_iff {e : Abort} :
    ofSecret (.text s) = .error e ↔ ∃ f, e = .failure f ∧ Misspelled s f := by
  constructor
  · intro herror
    have hnone : ¬ ∃ c, ofSecret (.text s) = .ok c := by
      rintro ⟨c, hc⟩
      rw [hc] at herror
      cases herror
    obtain ⟨f, hf⟩ := exists_misspelled hnone
    rw [ofSecret_text_of_misspelled hf] at herror
    exact ⟨f, (Except.error.inj herror).symm, hf⟩
  · rintro ⟨f, rfl, hf⟩
    exact ofSecret_text_of_misspelled hf

theorem Misspelled.cls {f : Failure} (h : Misspelled s f) : f.cls = .invalidKeyLength := by
  cases h <;> rfl

/-- A text is taken for the key that it spells, in one of four ways, and refused if it spells none.
The exported text of a key is the one of the four without digits that do not count. -/
theorem make_text_iff (a : Ambient) :
    (∀ s c a', perform (make (.text s)) a = (.ok c, a') ↔
      a' = a ∧ c.fault = none ∧ ∃ front last, Spelling s front last c.key) ∧
    (∀ s e a', perform (make (.text s)) a = (.error e, a') ↔
      a' = a ∧ ∃ f, e = .failure f ∧ f.cls = .invalidKeyLength ∧ Misspelled s f) ∧
    (∀ k : Key, {s | perform (make (.text s)) a = (.ok { key := k }, a)}.ncard = 4 ∧
      (∀ kind, perform (make (.bytes kind k.bytes)) a = (.ok { key := k }, a)) ∧
      perform (make (.text k.encoded)) a = (.ok { key := k }, a) ∧
      ∀ s front last, Spelling s front last k → (k.encoded = s ↔ last.val % 4 = 0)) := by
  have hmake : ∀ s, perform (make (.text s)) a = (ofSecret (.text s), a) := fun s =>
    perform_make (by nofun : Value.text s ≠ .null) a
  have hspelled : ∀ (s : String) (k : Key), perform (make (.text s)) a = (.ok { key := k }, a) ↔
      ∃ front last, Spelling s front last k := by
    intro s k
    rw [hmake, Prod.mk.injEq, ofSecret_text_eq_ok_iff]
    simp
  refine ⟨?_, ?_, fun k => ⟨?_, ?_, ?_, ?_⟩⟩
  · intro s c a'
    rw [hmake, Prod.mk.injEq, ofSecret_text_eq_ok_iff, and_comm, eq_comm]
  · intro s e a'
    rw [hmake, Prod.mk.injEq, ofSecret_text_eq_error_iff, and_comm, eq_comm]
    refine and_congr_right fun _ => exists_congr fun f => and_congr_right fun _ => ?_
    exact ⟨fun hf => ⟨hf.cls, hf⟩, And.right⟩
  · simp only [hspelled]
    exact ncard_spellings k
  · intro kind
    have hdata : Value.bytes kind k.bytes ≠ .null := nofun
    rw [perform_make hdata, ofSecret_bytes, dif_pos k.length_eq]
  · obtain ⟨front, last, h, -⟩ := exists_spelling_encoded k
    exact (hspelled _ k).mpr ⟨front, last, h⟩
  · exact fun s front last h => encoded_eq_iff h

/-- The last digits of this text do not count, so it is exported in another way. -/
theorem make_text_iff_zeros :
    let s := String.ofList (List.replicate 42 'A' ++ ['B', '='])
    let k : Key := ⟨List.replicate 32 0, by decide⟩
    let a : Ambient := ⟨.ofBytes [], .ofBytes [], []⟩
    perform (make (.text s)) a = (.ok { key := k }, a) ∧ k.encoded ≠ s := by
  intro s k a
  have hspelling : Spelling s (List.replicate 42 0) 1 k :=
    ⟨by decide, by decide +kernel, by decide +kernel⟩
  obtain ⟨hok, -, hkeys⟩ := make_text_iff a
  obtain ⟨-, -, -, hencoded⟩ := hkeys k
  refine ⟨(hok s { key := k } a).mpr ⟨rfl, rfl, _, _, hspelling⟩, fun heq => ?_⟩
  have hlow := (hencoded s _ _ hspelling).mp heq
  cases hlow

end Cipher

end Strongbox
