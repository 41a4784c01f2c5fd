import Strongbox.Text.Base64

/-! # Base64 round trip

Every byte string has one canonical encoding, and decoding it gives the bytes back. The canonical
texts are described on their own, by their groups of four characters, and not by the encoder. -/

namespace Strongbox.Base64

/-! ## Symbols -/

@[simp] theorem value?_symbol (s : Sextet) : value? (symbol s) = some s := by
  revert s
  decide +kernel

theorem symbol_ne_pad (s : Sextet) : symbol s ≠ '=' := by
  revert s
  decide +kernel

/-! ## Three octets and four groups -/

theorem join_split (a b c : UInt8) :
    join (split a b c).1 (split a b c).2.1 (split a b c).2.2.1 (split a b c).2.2.2 = (a, b, c) := by
  have ha := a.toNat_lt
  have hb := b.toNat_lt
  have hc := c.toNat_lt
  simp only [join, split, Fin.val_ofNat, Prod.mk.injEq]
  refine ⟨?_, ?_, ?_⟩ <;> apply UInt8.toNat_inj.mp <;> rw [UInt8.toNat_ofNat'] <;> omega

/-- A missing last octet leaves the last group empty and the low bits of the one before it. -/
theorem split_zero (a b : UInt8) :
    (split a b 0).2.2.2 = 0 ∧ (split a b 0).2.2.1.val % 4 = 0 := by
  simp only [split, UInt8.toNat_zero, Fin.ext_iff, Fin.val_ofNat, Fin.val_zero]
  omega

theorem split_zero_zero (a : UInt8) :
    (split a 0 0).2.2.1 = 0 ∧ (split a 0 0).2.2.2 = 0 ∧ (split a 0 0).2.1.val % 16 = 0 := by
  simp only [split, UInt8.toNat_zero, Fin.ext_iff, Fin.val_ofNat, Fin.val_zero]
  omega

/-! ## Canonical texts -/

/-- Groups of four characters of the alphabet; the last may stand for two octets or one, with
padding in place of what is missing and zeros in the bits that are not used. -/
inductive Canonical : List Char → Prop where
  | nil : Canonical []
  | one (s t : Sextet) (h : t.val % 16 = 0) : Canonical [symbol s, symbol t, '=', '=']
  | two (s t u : Sextet) (h : u.val % 4 = 0) : Canonical [symbol s, symbol t, symbol u, '=']
  | cons (s t u v : Sextet) {rest : List Char} : Canonical rest →
      Canonical (symbol s :: symbol t :: symbol u :: symbol v :: rest)

theorem canonical_encodeChars (bs : Bytes) : Canonical (encodeChars bs) := by
  fun_induction encodeChars bs with
  | case1 => exact .nil
  | case2 a s t u v h =>
      obtain ⟨-, -, ht⟩ := split_zero_zero a
      rw [h] at ht
      exact .one s t ht
  | case3 a b s t u v h =>
      obtain ⟨-, hu⟩ := split_zero a b
      rw [h] at hu
      exact .two s t u hu
  | case4 a b c rest s t u v h ih => exact .cons s t u v ih

theorem length_encodeChars (bs : Bytes) :
    (encodeChars bs).length = 4 * ((bs.length + 2) / 3) := by
  fun_induction encodeChars bs with
  | case1 => rfl
  | case2 => simp only [List.length_cons, List.length_nil]
  | case3 => simp only [List.length_cons, List.length_nil]
  | case4 a b c rest s t u v h ih =>
      simp only [List.length_cons, ih]
      omega

/-! ## Reading groups -/

theorem scan_symbol {p : Progress} (hp : p.padded = false) (s : Sextet) (rest : List Char) :
    scan p (symbol s :: rest) = (scan p.group rest).map (s :: ·) := by
  rw [scan, if_neg (symbol_ne_pad s), hp, value?_symbol]
  cases scan p.group rest <;> rfl

/-- Four groups bring the reader back to where it started. -/
theorem scan_four (s t u v : Sextet) (rest : List Char) :
    scan .start (symbol s :: symbol t :: symbol u :: symbol v :: rest) =
      (scan .start rest).map (s :: t :: u :: v :: ·) := by
  rw [scan_symbol rfl, scan_symbol rfl, scan_symbol rfl, scan_symbol rfl, Option.map_map,
    Option.map_map, Option.map_map]
  rfl

theorem scan_three_pad (s t u : Sextet) :
    scan .start [symbol s, symbol t, symbol u, '='] = some [s, t, u] := by
  rw [scan_symbol rfl, scan_symbol rfl, scan_symbol rfl]
  rfl

theorem scan_two_pads (s t : Sextet) :
    scan .start [symbol s, symbol t, '=', '='] = some [s, t] := by
  rw [scan_symbol rfl, scan_symbol rfl]
  rfl

theorem map_octets_scan_encodeChars (bs : Bytes) :
    (scan .start (encodeChars bs)).map octets = some bs := by
  fun_induction encodeChars bs with
  | case1 => rfl
  | case2 a s t u v h =>
      obtain ⟨hu, hv, -⟩ := split_zero_zero a
      have hj := join_split a 0 0
      rw [hu, hv, h] at hj
      rw [scan_two_pads, Option.map_some, octets, hj]
  | case3 a b s t u v h =>
      obtain ⟨hv, -⟩ := split_zero a b
      have hj := join_split a b 0
      rw [hv, h] at hj
      rw [scan_three_pad, Option.map_some, octets, hj]
  | case4 a b c rest s t u v h ih =>
      have hj := join_split a b c
      rw [h] at hj
      obtain ⟨groups, hscan, hocts⟩ := Option.map_eq_some_iff.mp ih
      rw [scan_four, hscan, Option.map_some, Option.map_some, octets, hj, hocts]

theorem Canonical.head?_ne_pad {cs : List Char} (h : Canonical cs) : cs.head? ≠ some '=' := by
  cases h <;> simp [symbol_ne_pad]

@[simp] theorem decode_encodeChars (bs : Bytes) : decode (encodeChars bs) = some bs := by
  rw [decode, sextets, if_neg (canonical_encodeChars bs).head?_ne_pad, map_octets_scan_encodeChars]

end Strongbox.Base64
