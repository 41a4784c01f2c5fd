import Mathlib.Data.List.Forall2
import Strongbox.Cipher
import Strongbox.Proofs.Perform

/-! # What a key can be made of

Byte strings of thirty-two octets are keys. Besides texts, so are three kinds of values that nobody
means as a secret: the number of octets of a key, which stands for as many zeros, and a list of
that many small numbers or a dictionary that has them for its keys. -/

namespace Strongbox

namespace Octets

/-! ## Octets of other values -/

/-- The items of a list and the octets with the same numbers. -/
def Lists (items : List Value) (bs : Bytes) : Prop :=
  List.Forall₂ (fun v b => v.toInt? = some (UInt8.toNat b : Int)) items bs

theorem toNat_ofNat_of_range {n : Int} (h : 0 ≤ n ∧ n < 256) :
    ((UInt8.ofNat n.toNat).toNat : Int) = n := by
  rw [UInt8.toNat_ofNat']
  omega

theorem ofItems_eq_ok_iff {items : List Value} {bs : Bytes} :
    ofItems items = .ok bs ↔ Lists items bs := by
  induction items generalizing bs with
  | nil =>
      constructor
      · intro h
        obtain rfl := Except.ok.inj h
        exact .nil
      · rintro ⟨⟩
        rfl
  | cons v items ih =>
      rw [ofItems]
      constructor
      · intro h
        split at h
        · cases h
        · rename_i n hn
          split at h
          · rename_i hrange
            cases hrest : ofItems items with
            | error m => rw [hrest] at h; cases h
            | ok rest =>
                rw [hrest] at h
                obtain rfl := Except.ok.inj h
                exact .cons (by rw [hn, toNat_ofNat_of_range hrange]) (ih.mp hrest)
          · cases h
      · rintro (_ | ⟨hv, hrest⟩)
        rename_i b rest
        have hrange : (0 : Int) ≤ b.toNat ∧ (b.toNat : Int) < 256 := by
          have := b.toNat_lt
          omega
        rw [hv, ih.mpr hrest]
        simp only [if_pos hrange, Int.toNat_natCast, UInt8.ofNat_toNat]
        rfl

/-- A count that can be had at all is not negative, and stands for as many zeros. -/
theorem of_ofCount_eq_ok {n : Int} {octets : Octets} (h : ofCount n = .ok octets) :
    0 ≤ n ∧ octets = .zeros n.toNat := by
  unfold ofCount at h
  split at h
  · cases h
  split at h
  · cases h
  split at h
  · cases h
  split at h
  · cases h
  · exact ⟨by omega, (Except.ok.inj h).symm⟩

theorem length_toBytes (octets : Octets) : octets.toBytes.length = octets.length := by
  cases octets with
  | given bs => rfl
  | zeros count => exact List.length_replicate

/-- The values that are neither text nor raw data and yet come to the octets of a key. -/
inductive Mistaken : Value → Bytes → Prop
  | count : Mistaken (.int 32) (List.replicate 32 0)
  | items {items : List Value} {bs : Bytes} : Lists items bs → bs.length = 32 →
      Mistaken (.list items) bs
  | keys {entries : List (EntryKey × Value)} {bs : Bytes} :
      Lists (entries.map fun e => e.1.value) bs → bs.length = 32 → Mistaken (.dict entries) bs

variable {v : Value} {bs : Bytes}

theorem mistaken_of_ofCount {n : Int} {octets : Octets} (h : ofCount n = .ok octets)
    (hlen : octets.length = 32) : n = 32 ∧ octets.toBytes = List.replicate 32 0 := by
  obtain ⟨hn, rfl⟩ := of_ofCount_eq_ok h
  have hcount : n.toNat = 32 := hlen
  exact ⟨by omega, congrArg (List.replicate · 0) hcount⟩

theorem lists_of_map_ofItems {items : List Value} {octets : Octets}
    (h : (ofItems items).map .given = .ok octets) : Lists items octets.toBytes := by
  cases hitems : ofItems items with
  | error m => rw [hitems] at h; cases h
  | ok bs =>
      rw [hitems] at h
      obtain rfl := Except.ok.inj h
      exact ofItems_eq_ok_iff.mp hitems

theorem mistaken_iff (hdata : ∀ kind bs, v ≠ .bytes kind bs) :
    Mistaken v bs ↔ ∃ octets, ofValue v = .ok octets ∧ octets.length = 32 ∧ octets.toBytes = bs := by
  constructor
  · rintro (_ | ⟨hitems, hlen⟩ | ⟨hkeys, hlen⟩)
    · exact ⟨.zeros 32, rfl, rfl, rfl⟩
    · refine ⟨.given bs, ?_, hlen, rfl⟩
      rw [ofValue, ofItems_eq_ok_iff.mpr hitems]
      rfl
    · refine ⟨.given bs, ?_, hlen, rfl⟩
      rw [ofValue, ofItems_eq_ok_iff.mpr hkeys]
      rfl
  · rintro ⟨octets, hv, hlen, rfl⟩
    cases v with
    | null | float | text | brokenText | thing => cases hv
    | bytes kind bs => exact absurd rfl (hdata kind bs)
    | bool b =>
        obtain ⟨hn, -⟩ := mistaken_of_ofCount hv hlen
        cases b <;> cases hn
    | int n =>
        obtain ⟨rfl, hzeros⟩ := mistaken_of_ofCount hv hlen
        rw [hzeros]
        exact .count
    | list items => exact .items (lists_of_map_ofItems hv) ((length_toBytes octets).trans hlen)
    | dict entries => exact .keys (lists_of_map_ofItems hv) ((length_toBytes octets).trans hlen)

end Octets

namespace Cipher

variable {v : Value}

theorem perform_make (hv : v ≠ .null) (a : Ambient) : perform (make v) a = (ofSecret v, a) := by
  cases v with
  | null => exact absurd rfl hv
  | _ => rfl

theorem ofKeyBytes_of_length {bs : Bytes} (h : bs.length = 32) :
    ofKeyBytes bs = .ok { key := ⟨bs, h⟩ } := by
  rw [ofKeyBytes, Key.ofBytes?, dif_pos h]

theorem ofKeyBytes_of_length_ne {bs : Bytes} (h : bs.length ≠ 32) :
    ofKeyBytes bs = .error (.keyLength bs.length) := by
  rw [ofKeyBytes, Key.ofBytes?, dif_neg h]

/-- The octets must be those of a key, and nothing is wrong with the cipher that has it. -/
theorem mapError_ofKeyBytes_eq_ok_iff {bs : Bytes} {c : Cipher} :
    (ofKeyBytes bs).mapError Abort.failure = .ok c ↔ c.fault = none ∧ c.key.bytes = bs := by
  obtain ⟨⟨octets, hlen⟩, fault⟩ := c
  constructor
  · intro h
    by_cases hbs : bs.length = 32
    · rw [ofKeyBytes_of_length hbs] at h
      cases h
      exact ⟨rfl, rfl⟩
    · rw [ofKeyBytes_of_length_ne hbs] at h
      cases h
  · rintro ⟨rfl, rfl⟩
    rw [ofKeyBytes_of_length hlen]
    rfl

theorem ofSecret_bytes (kind : ByteKind) (bs : Bytes) :
    ofSecret (.bytes kind bs) =
      if h : bs.length = 32 then .ok { key := ⟨bs, h⟩ }
      else .error (.failure (.keyLength bs.length)) := by
  have hsecret : ofSecret (.bytes kind bs) =
      if bs.length = 32 then (ofKeyBytes bs).mapError .failure
      else .error (.failure (.keyLength bs.length)) := rfl
  rw [hsecret]
  split
  · rename_i h
    rw [ofKeyBytes_of_length h]
    rfl
  · rfl

theorem ofSecret_eq_ok_iff (hv : ∀ s, v ≠ .text s) {c : Cipher} :
    ofSecret v = .ok c ↔ c.fault = none ∧
      ∃ octets, Octets.ofValue v = .ok octets ∧ octets.length = 32 ∧
        octets.toBytes = c.key.bytes := by
  by_cases hbroken : ∃ t, v = .brokenText t
  · obtain ⟨t, rfl⟩ := hbroken
    simp [ofSecret, Octets.ofValue, Value.toInt?]
  rw [not_exists] at hbroken
  cases hvalue : Octets.ofValue v with
  | error m =>
      have hsecret : ofSecret v = .error (.misuse m) := by
        cases v with
        | text s => exact absurd rfl (hv s)
        | brokenText t => exact absurd rfl (hbroken t)
        | _ => simp only [ofSecret, hvalue]
      simp [hsecret]
  | ok octets =>
      have hsecret : ofSecret v =
          if octets.length = 32 then (ofKeyBytes octets.toBytes).mapError .failure
          else .error (.failure (.keyLength octets.length)) := by
        cases v with
        | text s => exact absurd rfl (hv s)
        | brokenText t => exact absurd rfl (hbroken t)
        | _ =>
            simp only [ofSecret, hvalue]
            rfl
      rw [hsecret]
      split
      · rename_i hlen
        rw [mapError_ofKeyBytes_eq_ok_iff]
        simp [hlen, eq_comm]
      · rename_i hlen
        simp [hlen]

/-! ## What makes a cipher -/

/-- Of raw data, only thirty-two octets make a key, and they are the key. Of everything else that is
neither text nor absent, only what comes to the octets of a key by mistake does. -/
theorem make_material (a : Ambient) :
    (∀ kind bs, perform (make (.bytes kind bs)) a =
      (if h : bs.length = 32 then .ok { key := ⟨bs, h⟩ }
        else .error (.failure (.keyLength bs.length)), a)) ∧
    (∀ v, v ≠ .null → (∀ s, v ≠ .text s) → (∀ kind bs, v ≠ .bytes kind bs) →
      (∀ c a', perform (make v) a = (.ok c, a') ↔
        a' = a ∧ c.fault = none ∧ Octets.Mistaken v c.key.bytes) ∧
      ((∀ bs, ¬ Octets.Mistaken v bs) → ∃ e, perform (make v) a = (.error e, a))) := by
  constructor
  · intro kind bs
    have hnull : Value.bytes kind bs ≠ .null := nofun
    rw [perform_make hnull, ofSecret_bytes]
  · intro v hnull htext hdata
    have hok : ∀ c, ofSecret v = .ok c ↔ c.fault = none ∧ Octets.Mistaken v c.key.bytes := by
      intro c
      rw [ofSecret_eq_ok_iff htext, Octets.mistaken_iff hdata]
    rw [perform_make hnull]
    constructor
    · intro c a'
      rw [Prod.mk.injEq, hok, and_comm, eq_comm]
    · intro hnone
      cases hsecret : ofSecret v with
      | error e => exact ⟨e, rfl⟩
      | ok c => exact absurd ((hok c).mp hsecret).2 (hnone _)

/-- A list of thirty-one small numbers and a truth value is taken for a key, and so are the keys of
a dictionary from zero to thirty-one; one count too few is not. -/
theorem make_material_truth :
    let a : Ambient := ⟨.ofBytes [], .ofBytes [], []⟩
    (∃ c : Cipher, c.key.bytes = List.replicate 31 7 ++ [1] ∧
      perform (make (.list (List.replicate 31 (.int 7) ++ [.bool true]))) a = (.ok c, a)) ∧
    (∃ c : Cipher, c.key.bytes = (List.range 32).map UInt8.ofNat ∧
      perform (make (.dict ((List.range 32).map fun n => (.int n, .null)))) a = (.ok c, a)) ∧
    ∃ e, perform (make (.int 31)) a = (.error e, a) := by
  intro a
  obtain ⟨-, hother⟩ := make_material a
  refine ⟨?_, ?_, ?_⟩
  · obtain ⟨hok, -⟩ := hother (.list (List.replicate 31 (.int 7) ++ [.bool true])) nofun nofun nofun
    let c : Cipher := { key := ⟨List.replicate 31 7 ++ [1], by decide⟩ }
    have hitems : Octets.Lists (List.replicate 31 (.int 7) ++ [.bool true]) c.key.bytes := by
      rw [← Octets.ofItems_eq_ok_iff]
      rfl
    exact ⟨c, rfl, (hok c a).mpr ⟨rfl, rfl, .items hitems c.key.length_eq⟩⟩
  · let entries : List (EntryKey × Value) := (List.range 32).map fun n => (.int n, .null)
    obtain ⟨hok, -⟩ := hother (.dict entries) nofun nofun nofun
    let c : Cipher := { key := ⟨(List.range 32).map UInt8.ofNat, by decide⟩ }
    have hkeys : Octets.Lists (entries.map fun e => e.1.value) c.key.bytes := by
      rw [← Octets.ofItems_eq_ok_iff]
      rfl
    exact ⟨c, rfl, (hok c a).mpr ⟨rfl, rfl, .keys hkeys c.key.length_eq⟩⟩
  · obtain ⟨-, herror⟩ := hother (.int 31) nofun nofun nofun
    refine herror fun bs hbs => ?_
    cases hbs

/-- A count of octets is taken for as many zeros, and they are a key. -/
theorem make_accepts_count :
    ¬ ∀ (v : Value) (a : Ambient), v ≠ .null → (∀ s, v ≠ .text s) → (∀ kind bs, v ≠ .bytes kind bs) →
      ∃ e a', perform (make v) a = (.error e, a') := by
  intro hraises
  obtain ⟨e, a', herror⟩ :=
    hraises (.int 32) ⟨.ofBytes [], .ofBytes [], []⟩ nofun nofun nofun
  have hnull : Value.int 32 ≠ .null := nofun
  have hzeros : ofSecret (.int 32) = .ok { key := ⟨List.replicate 32 0, by decide⟩ } := rfl
  rw [perform_make hnull, hzeros] at herror
  cases herror

end Cipher

end Strongbox
