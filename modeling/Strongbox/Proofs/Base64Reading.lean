import Mathlib.Tactic.NormNum
import Strongbox.Proofs.Base64

/-! # The texts that decode

A text decodes if it is characters of the alphabet with padding behind them that fits their number.
The octets are the whole ones among the bits of the six-bit groups: nothing is asked of the bits
left over, nor of padding behind whole fours. -/

namespace Strongbox.Base64

/-! ## Binary digits -/

/-- The last `width` binary digits of a number, most significant first. -/
def digits : Nat → Nat → List Bool
  | 0, _ => []
  | width + 1, n => digits width (n / 2) ++ [n % 2 == 1]

@[simp] theorem length_digits (width n : Nat) : (digits width n).length = width := by
  induction width generalizing n with
  | zero => rfl
  | succ width ih => simp [digits, ih]

theorem digits_append (width n : Nat) {width' m : Nat} (hm : m < 2 ^ width') :
    digits width n ++ digits width' m = digits (width + width') (n * 2 ^ width' + m) := by
  induction width' generalizing m with
  | zero =>
      obtain rfl : m = 0 := by simpa using hm
      simp [digits]
  | succ width' ih =>
      have hhalf : m / 2 < 2 ^ width' := by
        rw [Nat.pow_succ] at hm
        omega
      have hsum : n * 2 ^ (width' + 1) + m = 2 * (n * 2 ^ width') + m := by
        rw [Nat.pow_succ, ← Nat.mul_assoc, Nat.mul_comm 2]
      have hdiv : (2 * (n * 2 ^ width') + m) / 2 = n * 2 ^ width' + m / 2 := by omega
      have hmod : (2 * (n * 2 ^ width') + m) % 2 = m % 2 := by omega
      rw [digits, ← Nat.add_assoc, digits, hsum, hdiv, hmod, ← ih hhalf, List.append_assoc]

theorem digits_injective {width n m : Nat} (hn : n < 2 ^ width) (hm : m < 2 ^ width)
    (h : digits width n = digits width m) : n = m := by
  induction width generalizing n m with
  | zero => omega
  | succ width ih =>
      rw [Nat.pow_succ] at hn hm
      obtain ⟨hhigh, hlow⟩ := List.append_inj' h rfl
      have hhalf := ih (by omega) (by omega) hhigh
      have hbit : (n % 2 == 1) = (m % 2 == 1) := by simpa using hlow
      rw [Bool.eq_iff_iff, beq_iff_eq, beq_iff_eq] at hbit
      omega

def octetDigits (b : UInt8) : List Bool :=
  digits 8 b.toNat

def sextetDigits (s : Sextet) : List Bool :=
  digits 6 s.val

theorem length_flatMap_octetDigits (bs : Bytes) :
    (bs.flatMap octetDigits).length = 8 * bs.length := by
  induction bs with
  | nil => rfl
  | cons b bs ih =>
      rw [List.flatMap_cons, List.length_append, ih, octetDigits, length_digits, List.length_cons]
      omega

theorem length_flatMap_sextetDigits (groups : List Sextet) :
    (groups.flatMap sextetDigits).length = 6 * groups.length := by
  induction groups with
  | nil => rfl
  | cons s groups ih =>
      rw [List.flatMap_cons, List.length_append, ih, sextetDigits, length_digits, List.length_cons]
      omega

/-- Digits of one width for each item can be cut into the items again. -/
theorem flatMap_injective {α : Type} {f : α → List Bool} {width : Nat}
    (hwidth : ∀ a, (f a).length = width) (hf : Function.Injective f) {as bs : List α}
    (hlen : as.length = bs.length) (h : as.flatMap f = bs.flatMap f) : as = bs := by
  induction as generalizing bs with
  | nil => exact (List.length_eq_zero_iff.mp hlen.symm).symm
  | cons a as ih =>
      cases bs with
      | nil => simp at hlen
      | cons b bs =>
          rw [List.flatMap_cons, List.flatMap_cons] at h
          obtain ⟨hhead, htail⟩ := List.append_inj h ((hwidth a).trans (hwidth b).symm)
          rw [ih (by simpa using hlen) htail, hf hhead]

theorem octetDigits_injective : Function.Injective octetDigits :=
  fun a b h => UInt8.toNat_inj.mp (digits_injective a.toNat_lt b.toNat_lt h)

theorem sextetDigits_injective : Function.Injective sextetDigits :=
  fun s t h => Fin.ext (digits_injective s.isLt t.isLt h)

theorem flatMap_octetDigits_injective {as bs : Bytes} (hlen : as.length = bs.length)
    (h : as.flatMap octetDigits = bs.flatMap octetDigits) : as = bs :=
  flatMap_injective (f := octetDigits) (fun b => length_digits 8 b.toNat) octetDigits_injective
    hlen h

theorem flatMap_sextetDigits_injective {groups groups' : List Sextet}
    (hlen : groups.length = groups'.length)
    (h : groups.flatMap sextetDigits = groups'.flatMap sextetDigits) : groups = groups' :=
  flatMap_injective (f := sextetDigits) (fun s => length_digits 6 s.val) sextetDigits_injective
    hlen h

/-! ## Whole octets of a run of groups -/

theorem toNat_join (s t u v : Sextet) :
    ((join s t u v).1.toNat * 256 + (join s t u v).2.1.toNat) * 256 + (join s t u v).2.2.toNat =
      ((s.val * 64 + t.val) * 64 + u.val) * 64 + v.val := by
  simp only [join, UInt8.toNat_ofNat']
  omega

/-- Four groups and the three octets they are joined to have the same digits. -/
theorem digits_join (s t u v : Sextet) :
    [(join s t u v).1, (join s t u v).2.1, (join s t u v).2.2].flatMap octetDigits =
      [s, t, u, v].flatMap sextetDigits := by
  have hoctets (a b c : UInt8) : [a, b, c].flatMap octetDigits =
      digits 24 ((a.toNat * 256 + b.toNat) * 256 + c.toNat) := by
    simp only [List.flatMap_cons, List.flatMap_nil, List.append_nil, octetDigits,
      ← List.append_assoc]
    rw [digits_append 8 _ b.toNat_lt, digits_append 16 _ c.toNat_lt]
    norm_num
  have hgroups : [s, t, u, v].flatMap sextetDigits =
      digits 24 (((s.val * 64 + t.val) * 64 + u.val) * 64 + v.val) := by
    simp only [List.flatMap_cons, List.flatMap_nil, List.append_nil, sextetDigits,
      ← List.append_assoc]
    rw [digits_append 6 _ t.isLt, digits_append 12 _ u.isLt, digits_append 18 _ v.isLt]
    norm_num
  rw [hoctets, hgroups, toNat_join]

/-- The digits of fewer octets are among those of fewer groups. -/
theorem prefix_of_flatMap_append_eq {bs : Bytes} {groups : List Sextet} (bs' : Bytes)
    (groups' : List Sextet)
    (h : (bs ++ bs').flatMap octetDigits = (groups ++ groups').flatMap sextetDigits)
    (hlen : 8 * bs.length ≤ 6 * groups.length) :
    bs.flatMap octetDigits <+: groups.flatMap sextetDigits := by
  rw [List.flatMap_append, List.flatMap_append] at h
  have hbs := h ▸ List.prefix_append (bs.flatMap octetDigits) (bs'.flatMap octetDigits)
  apply List.prefix_of_prefix_length_le hbs (List.prefix_append _ _)
  rwa [length_flatMap_octetDigits, length_flatMap_sextetDigits]

theorem length_octets (groups : List Sextet) : (octets groups).length = 6 * groups.length / 8 := by
  fun_induction octets groups with
  | case1 s t u v rest a b c h ih =>
      simp only [List.length_cons, ih]
      omega
  | _ => simp

theorem prefix_octets (groups : List Sextet) :
    (octets groups).flatMap octetDigits <+: groups.flatMap sextetDigits := by
  fun_induction octets groups with
  | case1 s t u v rest a b c h ih =>
      have hj := digits_join s t u v
      rw [h] at hj
      have hoctets : (a :: b :: c :: octets rest).flatMap octetDigits =
          [a, b, c].flatMap octetDigits ++ (octets rest).flatMap octetDigits := by simp
      have hgroups : (s :: t :: u :: v :: rest).flatMap sextetDigits =
          [s, t, u, v].flatMap sextetDigits ++ rest.flatMap sextetDigits := by simp
      rw [hoctets, hgroups, hj]
      exact (List.prefix_append_right_inj _).mpr ih
  | case2 s t u a b c h =>
      have hj := digits_join s t u 0
      rw [h] at hj
      exact prefix_of_flatMap_append_eq [c] [0] hj (Nat.le_of_ble_eq_true rfl)
  | case3 s t a b c h =>
      have hj := digits_join s t 0 0
      rw [h] at hj
      exact prefix_of_flatMap_append_eq [b, c] [0, 0] hj (Nat.le_of_ble_eq_true rfl)
  | case4 => exact List.nil_prefix
  | case5 => exact List.nil_prefix

/-- The whole octets of a run of groups are the only ones of their number and digits. -/
theorem eq_octets_iff {bs : Bytes} {groups : List Sextet} :
    bs = octets groups ↔ bs.length = 6 * groups.length / 8 ∧
      bs.flatMap octetDigits <+: groups.flatMap sextetDigits := by
  constructor
  · rintro rfl
    exact ⟨length_octets groups, prefix_octets groups⟩
  · rintro ⟨hlen, hprefix⟩
    have hlen' := hlen.trans (length_octets groups).symm
    refine flatMap_octetDigits_injective hlen' (List.IsPrefix.eq_of_length ?_ ?_)
    · apply List.prefix_of_prefix_length_le hprefix (prefix_octets groups)
      apply Nat.le_of_eq
      rw [length_flatMap_octetDigits, length_flatMap_octetDigits, hlen']
    · rw [length_flatMap_octetDigits, length_flatMap_octetDigits, hlen']

/-! ## Symbols and padding marks -/

theorem value?_eq_some_iff {c : Char} {s : Sextet} : value? c = some s ↔ c = symbol s := by
  constructor
  · intro h
    have hc := List.find?_some h
    exact (beq_iff_eq.mp hc).symm
  · rintro rfl
    exact value?_symbol s

/-- Progress after `n` more groups. -/
def Progress.groups (p : Progress) (n : Nat) : Progress :=
  { p with quad := (p.quad + n) % 4 }

theorem scan_map_symbol_append {p : Progress} (hp : p.padded = false) (hquad : p.quad < 4)
    (groups : List Sextet) (rest : List Char) :
    scan p (groups.map symbol ++ rest) =
      (scan (p.groups groups.length) rest).map (groups ++ ·) := by
  induction groups generalizing p with
  | nil =>
      have hp' : p.groups 0 = p := by simp [Progress.groups, Nat.mod_eq_of_lt hquad]
      simp [hp']
  | cons s groups ih =>
      have hstep : p.group.groups groups.length = p.groups (groups.length + 1) := by
        simp only [Progress.group, Progress.groups, Progress.mk.injEq, and_true]
        omega
      have hquad' : p.group.quad < 4 := Nat.mod_lt _ (by decide)
      rw [List.map_cons, List.cons_append, scan_symbol hp, ih (by exact hp) hquad', hstep,
        Option.map_map]
      rfl

/-- Padding marks fill up exactly what is missing of the last four, or stand where nothing is
missing. -/
theorem scan_replicate_pad (p : Progress) (hp : 2 ≤ p.quad → p.quad + p.pads < 4) (k : Nat) :
    scan p (List.replicate k '=') =
      if p.quad = 0 ∨ 2 ≤ p.quad ∧ p.quad + p.pads + k = 4 then some [] else none := by
  induction k generalizing p with
  | zero =>
      have hiff : p.quad = 0 ∨ 2 ≤ p.quad ∧ p.quad + p.pads + 0 = 4 ↔ p.quad = 0 := by omega
      simp only [List.replicate_zero, scan, hiff]
  | succ k ih =>
      have hpad : p.pad.complete = true ↔ 2 ≤ p.quad ∧ p.quad + p.pads + 1 = 4 := by
        rw [Progress.complete, Progress.pad, Bool.and_eq_true, decide_eq_true_iff,
          decide_eq_true_iff]
        dsimp only
        split <;> omega
      rw [List.replicate_succ, scan, if_pos rfl]
      by_cases hlast : 2 ≤ p.quad ∧ p.quad + p.pads + 1 = 4
      · have hempty : (List.replicate k '=').isEmpty = true ↔ k = 0 := by
          cases k <;> simp [List.replicate_succ]
        rw [if_pos (hpad.mpr hlast)]
        simp only [hempty]
        congr 1
        apply propext
        omega
      · have hstill : 2 ≤ p.pad.quad → p.pad.quad + p.pad.pads < 4 := by
          intro hquad
          have hquad' : 2 ≤ p.quad := hquad
          simp only [Progress.pad, if_pos hquad']
          have := hp hquad'
          omega
        have hiff : p.pad.quad = 0 ∨ 2 ≤ p.pad.quad ∧ p.pad.quad + p.pad.pads + k = 4 ↔
            p.quad = 0 ∨ 2 ≤ p.quad ∧ p.quad + p.pads + (k + 1) = 4 := by
          simp only [Progress.pad]
          split <;> omega
        rw [if_neg (mt hpad.mp hlast), ih p.pad hstill]
        simp only [hiff]

/-- Behind a padding mark there are only padding marks. -/
theorem eq_replicate_of_scan_padded {p : Progress} (hp : p.padded = true) {cs : List Char}
    {groups : List Sextet} (h : scan p cs = some groups) :
    groups = [] ∧ cs = List.replicate cs.length '=' := by
  fun_induction scan p cs generalizing groups with
  | case1 p hquad => exact ⟨(Option.some.inj h).symm, rfl⟩
  | case2 p hquad => cases h
  | case3 p rest hcomplete hrest =>
      obtain rfl := List.isEmpty_iff.mp hrest
      exact ⟨(Option.some.inj h).symm, rfl⟩
  | case4 p rest hcomplete hrest => cases h
  | case5 p rest hcomplete ih =>
      obtain ⟨hgroups, hrest⟩ := ih rfl h
      exact ⟨hgroups, congrArg ('=' :: ·) hrest⟩
  | case6 p c rest hc hpadded => cases h
  | case7 p c rest hc hpadded ih => exact absurd hp hpadded

/-- A text that is read is characters of the alphabet with padding marks behind them. -/
theorem exists_eq_append_of_scan {p : Progress} (hp : p.padded = false) {cs : List Char}
    {groups : List Sextet} (h : scan p cs = some groups) :
    ∃ k, cs = groups.map symbol ++ List.replicate k '=' := by
  fun_induction scan p cs generalizing groups with
  | case1 p hquad => exact ⟨0, by rw [← Option.some.inj h]; rfl⟩
  | case2 p hquad => cases h
  | case3 p rest hcomplete hrest =>
      obtain rfl := List.isEmpty_iff.mp hrest
      exact ⟨1, by rw [← Option.some.inj h]; rfl⟩
  | case4 p rest hcomplete hrest => cases h
  | case5 p rest hcomplete ih =>
      obtain ⟨rfl, hrest⟩ := eq_replicate_of_scan_padded rfl h
      exact ⟨rest.length + 1, congrArg ('=' :: ·) hrest⟩
  | case6 p c rest hc hpadded => cases h
  | case7 p c rest hc hpadded ih =>
      obtain ⟨s, hs, hrest⟩ := Option.bind_eq_some_iff.mp h
      obtain ⟨tail, htail, hcons⟩ := Option.bind_eq_some_iff.mp hrest
      obtain ⟨k, hk⟩ := ih hp htail
      refine ⟨k, ?_⟩
      rw [← Option.some.inj hcons, value?_eq_some_iff.mp hs, hk]
      rfl

theorem scan_start_append (groups : List Sextet) (k : Nat) :
    scan .start (groups.map symbol ++ List.replicate k '=') =
      if groups.length % 4 = 0 ∨ 2 ≤ groups.length % 4 ∧ groups.length % 4 + k = 4 then
        some groups
      else none := by
  have hquad : (Progress.start.groups groups.length).quad = groups.length % 4 := by
    simp [Progress.groups, Progress.start]
  have hpads : (Progress.start.groups groups.length).pads = 0 := rfl
  rw [scan_map_symbol_append rfl (by decide), scan_replicate_pad _ (by omega), hquad, hpads,
    Nat.add_zero]
  split <;> simp

theorem head?_append_eq_pad_iff (groups : List Sextet) (k : Nat) :
    (groups.map symbol ++ List.replicate k '=').head? = some '=' ↔ groups.length = 0 ∧ k ≠ 0 := by
  cases groups <;> cases k <;> simp [List.replicate_succ, symbol_ne_pad]

/-! ## Texts that decode -/

/-- The numbers of padding marks that may stand behind `n` characters of the alphabet. -/
def Padding (n k : Nat) : Prop :=
  n = 0 ∧ k = 0 ∨ 0 < n ∧ n % 4 = 0 ∨ n % 4 = 2 ∧ k = 2 ∨ n % 4 = 3 ∧ k = 1

theorem sextets_eq_some_iff {cs : List Char} {groups : List Sextet} :
    sextets cs = some groups ↔ ∃ k, cs = groups.map symbol ++ List.replicate k '=' ∧
      Padding groups.length k := by
  rw [sextets]
  constructor
  · intro h
    split at h
    · cases h
    · rename_i hhead
      obtain ⟨k, rfl⟩ := exists_eq_append_of_scan rfl h
      rw [head?_append_eq_pad_iff] at hhead
      rw [scan_start_append, Option.ite_none_right_eq_some] at h
      exact ⟨k, rfl, by unfold Padding; omega⟩
  · rintro ⟨k, rfl, hk⟩
    unfold Padding at hk
    rw [if_neg, scan_start_append, if_pos (by omega)]
    rw [head?_append_eq_pad_iff]
    omega

/-- `bs` are the whole octets among the bits of a padded text. -/
def Reads (cs : List Char) (bs : Bytes) : Prop :=
  ∃ (groups : List Sextet) (k : Nat), cs = groups.map symbol ++ List.replicate k '=' ∧
    Padding groups.length k ∧ bs.length = 6 * groups.length / 8 ∧
      bs.flatMap octetDigits <+: groups.flatMap sextetDigits

theorem decode_eq_some_iff {cs : List Char} {bs : Bytes} : decode cs = some bs ↔ Reads cs bs := by
  rw [decode, Option.map_eq_some_iff]
  constructor
  · rintro ⟨groups, hgroups, rfl⟩
    obtain ⟨k, hcs, hk⟩ := sextets_eq_some_iff.mp hgroups
    exact ⟨groups, k, hcs, hk, eq_octets_iff.mp rfl⟩
  · rintro ⟨groups, k, hcs, hk, hbs⟩
    exact ⟨groups, sextets_eq_some_iff.mpr ⟨k, hcs, hk⟩, (eq_octets_iff.mpr hbs).symm⟩

example : decode "AAAB===".toList = some [0, 0, 1] := by decide +kernel

example : decode "AB==".toList = some [0] := by decide +kernel

end Strongbox.Base64
