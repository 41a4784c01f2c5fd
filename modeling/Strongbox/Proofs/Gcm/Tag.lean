import Strongbox.Proofs.CounterMode
import Strongbox.Proofs.Gcm.Field

/-! # What a tag depends on

The hash takes every block into account: under a subkey other than zero, changing one block changes
the hash. So texts that differ within one block have different tags, and so does one text under two
vectors, if the blocks are permuted. -/

namespace Strongbox

/-! ## Pieces -/

namespace Bytes

theorem pieces_of_ne_nil {bs : Bytes} (size : ℕ) (hne : bs ≠ []) :
    pieces size bs = bs.take (size + 1) :: pieces size (bs.drop (size + 1)) := by
  cases bs with
  | nil => exact absurd rfl hne
  | cons b bs => rw [pieces, List.take_succ_cons, List.drop_succ_cons]

/-- A cut between two pieces. -/
theorem pieces_take_drop {bs : Bytes} (size n : ℕ) (hn : (size + 1) * n ≤ bs.length) :
    pieces size bs =
      pieces size (bs.take ((size + 1) * n)) ++ pieces size (bs.drop ((size + 1) * n)) := by
  induction n generalizing bs with
  | zero => simp [pieces]
  | succ n ih =>
      rw [Nat.mul_succ] at hn ⊢
      have hne : bs ≠ [] := List.ne_nil_of_length_pos (by omega)
      have hne' : bs.take ((size + 1) * n + (size + 1)) ≠ [] :=
        List.ne_nil_of_length_pos (by rw [List.length_take]; omega)
      have hrest : (size + 1) * n ≤ (bs.drop (size + 1)).length := by
        rw [List.length_drop]
        omega
      rw [pieces_of_ne_nil size hne, ih hrest, pieces_of_ne_nil size hne', List.take_take,
        List.drop_take, List.drop_drop, Nat.add_comm (size + 1), Nat.add_sub_cancel,
        Nat.min_eq_left (Nat.le_add_left _ _), List.cons_append]

end Bytes

namespace Gcm

open Function

/-! ## Octets of a block -/

namespace Block

/-- One more octet at the end of a block. -/
def append (x : Block) (b : UInt8) : Block :=
  x <<< 8 ||| b.toBitVec.setWidth 128

theorem extractLsb'_append_zero (x : Block) (b : UInt8) :
    (append x b).extractLsb' 0 8 = b.toBitVec := by
  apply BitVec.eq_of_getLsbD_eq
  intro i hi
  simp [append, hi]
  omega

theorem extractLsb'_append_succ (x : Block) (b : UInt8) {k : ℕ} (hk : k + 1 < 16) :
    (append x b).extractLsb' (8 * (k + 1)) 8 = x.extractLsb' (8 * k) 8 := by
  apply BitVec.eq_of_getLsbD_eq
  intro i hi
  have hin : 8 * (k + 1) + i < 128 := by omega
  have hout : ¬ 8 * (k + 1) + i < 8 := by omega
  have hb : b.toBitVec.getLsbD (8 * (k + 1) + i) = false := BitVec.getLsbD_of_ge _ _ (by omega)
  have hsub : 8 * (k + 1) + i - 8 = 8 * k + i := by omega
  have hlow : 8 * k + i < 128 := by omega
  simp [append, hi, hin, hout, hb, hsub, BitVec.getLsbD_eq_getElem hlow]

/-- The octets come out in the order in which they went in, the last at the low end. -/
theorem extractLsb'_foldl_append (x : Block) (bs : Bytes) {k : ℕ} (hk : k < 16)
    (hlen : k < bs.reverse.length) :
    (bs.foldl append x).extractLsb' (8 * k) 8 = (bs.reverse[k]).toBitVec := by
  induction bs using List.reverseRecOn generalizing k with
  | nil => simp at hlen
  | append_singleton bs b ih =>
      cases k with
      | zero => simp [extractLsb'_append_zero]
      | succ k =>
          simp only [List.foldl_append, List.foldl_cons, List.foldl_nil]
          rw [extractLsb'_append_succ _ _ hk, ih (by omega) (by simpa using hlen)]
          simp

theorem toBytes_foldl_append (x : Block) {bs : Bytes} (hlen : bs.length = 16) :
    (bs.foldl append x).toBytes = bs := by
  apply List.ext_getElem
  · rw [length_toBytes, hlen]
  · intro i hi _
    rw [length_toBytes] at hi
    have hi' : 15 - i < bs.reverse.length := by
      rw [List.length_reverse]
      omega
    simp only [toBytes, List.getElem_map, List.getElem_range]
    rw [extractLsb'_foldl_append x bs (by omega) hi']
    have : bs.length - 1 - (15 - i) = i := by omega
    simp [List.getElem_reverse, this]

theorem toBytes_ofBytes {bs : Bytes} (hlen : bs.length ≤ 16) :
    (ofBytes bs).toBytes = bs ++ List.replicate (16 - bs.length) 0 := by
  apply toBytes_foldl_append
  rw [List.length_append, List.length_replicate]
  omega

theorem getElem?_toBytes (x : Block) {k : ℕ} (hk : k < 16) :
    x.toBytes[15 - k]? = some (UInt8.ofBitVec (x.extractLsb' (8 * k) 8)) := by
  have hplace : 15 - (15 - k) = k := by omega
  rw [toBytes, List.getElem?_map, List.getElem?_range (by omega), Option.map_some, hplace]

theorem toBytes_injective : Function.Injective toBytes := by
  intro x y h
  apply BitVec.eq_of_getLsbD_eq
  intro i hi
  have hk : i / 8 < 16 := by omega
  have hbyte := congrArg (fun bs : Bytes => bs[15 - i / 8]?) h
  rw [getElem?_toBytes x hk, getElem?_toBytes y hk] at hbyte
  have hbits := UInt8.ofBitVec.inj (Option.some.inj hbyte)
  have hbit := congrArg (fun b => b.getLsbD (i % 8)) hbits
  have hpos : 8 * (i / 8) + i % 8 = i := Nat.div_add_mod i 8
  have hlt : i % 8 < 8 := Nat.mod_lt i (by decide)
  simpa only [BitVec.getLsbD_extractLsb', hlt, decide_true, Bool.true_and, hpos] using hbit

/-- Octet strings of one length are different blocks. -/
theorem eq_of_ofBytes_eq {as bs : Bytes} (hlen : as.length = bs.length) (hle : as.length ≤ 16)
    (h : ofBytes as = ofBytes bs) : as = bs := by
  have hbytes := congrArg toBytes h
  rw [toBytes_ofBytes hle, toBytes_ofBytes (hlen ▸ hle)] at hbytes
  exact (List.append_inj hbytes hlen).1

end Block

theorem counterBlock_eq_iff {iv iv' : Bytes} (hiv : iv.length = 12) (hiv' : iv'.length = 12)
    (n : ℕ) : counterBlock iv n = counterBlock iv' n ↔ iv = iv' := by
  refine ⟨fun h => ?_, fun h => h ▸ rfl⟩
  have hbytes := Block.eq_of_ofBytes_eq (by simp [hiv, hiv'])
    (by simp [hiv, Bytes.length_bigEndian]) h
  exact List.append_cancel_right hbytes

/-! ## The hash -/

/-- One step of Horner's rule. -/
theorem step_injective {h : Block} (hne : h ≠ 0) (x : Block) :
    Injective fun acc => Block.times (acc ^^^ x) h := by
  intro a b hab
  exact (BitVec.xor_left_inj _).mp (Block.times_injective hne hab)

theorem foldl_injective {h : Block} (hne : h ≠ 0) (blocks : List Block) :
    Injective (blocks.foldl fun acc x => Block.times (acc ^^^ x) h) := by
  induction blocks with
  | nil => exact injective_id
  | cons x blocks ih => exact ih.comp (step_injective hne x)

theorem hash_append_cons_eq_iff {h : Block} (hne : h ≠ 0) (before after : List Block)
    (x y : Block) :
    hash h (before ++ x :: after) = hash h (before ++ y :: after) ↔ x = y := by
  refine ⟨fun heq => ?_, fun heq => heq ▸ rfl⟩
  simp only [hash, List.foldl_append, List.foldl_cons] at heq
  exact (BitVec.xor_right_inj _).mp (Block.times_injective hne (foldl_injective hne after heq))

/-! ## Tags -/

variable {permute : Block → Block}

/-- One block of a ciphertext among the hashed ones. -/
theorem hashed_of_lt {c : Bytes} {j : ℕ} (hj : 16 * j < c.length) :
    hashed c =
      (Bytes.pieces 15 (c.take (16 * j))).map Block.ofBytes ++
        Block.ofBytes ((c.drop (16 * j)).take 16) ::
          ((Bytes.pieces 15 (c.drop (16 * (j + 1)))).map Block.ofBytes ++
            [BitVec.ofNat 128 (8 * c.length)]) := by
  have hne : c.drop (16 * j) ≠ [] := List.ne_nil_of_length_pos (by rw [List.length_drop]; omega)
  rw [hashed, Bytes.pieces_take_drop 15 j hj.le, Bytes.pieces_of_ne_nil 15 hne, List.drop_drop]
  simp [Nat.mul_succ]

/-- Ciphertexts of one length with one tag do not differ within a single block. -/
theorem eq_of_tag_eq_of_block {iv c c' : Bytes} (hkey : permute 0 ≠ 0)
    (htag : tag permute iv c = tag permute iv c') (hlen : c.length = c'.length) (j : ℕ)
    (hbefore : c.take (16 * j) = c'.take (16 * j))
    (hafter : c.drop (16 * (j + 1)) = c'.drop (16 * (j + 1))) : c = c' := by
  by_cases hj : 16 * j < c.length
  · have hhash := (BitVec.xor_left_inj _).mp htag
    rw [hashed_of_lt hj, hashed_of_lt (hlen ▸ hj), hbefore, hafter, hlen,
      hash_append_cons_eq_iff hkey] at hhash
    have hblock := Block.eq_of_ofBytes_eq (by simp [hlen]) (by simp) hhash
    have hrest : c.drop (16 * j) = c'.drop (16 * j) := by
      rw [← List.take_append_drop 16 (c.drop (16 * j)), hblock, List.drop_drop, ← Nat.mul_succ,
        hafter, Nat.mul_succ, ← List.drop_drop, List.take_append_drop]
    rw [← List.take_append_drop (16 * j) c, hbefore, hrest, List.take_append_drop]
  · rwa [List.take_of_length_le (Nat.not_lt.mp hj),
      List.take_of_length_le (hlen ▸ Nat.not_lt.mp hj)] at hbefore

/-- One ciphertext has different tags under different vectors. -/
theorem eq_of_tag_eq_of_vector {iv iv' c : Bytes} (hpermute : Injective permute)
    (hiv : iv.length = 12) (hiv' : iv'.length = 12)
    (htag : tag permute iv c = tag permute iv' c) : iv = iv' :=
  (counterBlock_eq_iff hiv hiv' 1).mp (hpermute ((BitVec.xor_right_inj _).mp htag))

end Gcm

end Strongbox
