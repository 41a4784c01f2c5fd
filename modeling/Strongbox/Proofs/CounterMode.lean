import Strongbox.Gcm.Mode

/-! # Counter mode is its own inverse

Nothing is assumed about the permutation: the key stream is combined with the data by an exclusive
or, so a second pass under the same vector takes the first one back. -/

namespace Strongbox

/-! ## Pieces and exclusive or -/

namespace Bytes

theorem pieces_of_length_le {size : Nat} {bs : Bytes} (hne : bs ≠ [])
    (hlen : bs.length ≤ size + 1) : pieces size bs = [bs] := by
  cases bs with
  | nil => exact absurd rfl hne
  | cons b bs =>
      have hbs : bs.length ≤ size := by simpa using hlen
      rw [pieces, List.take_of_length_le hbs, List.drop_of_length_le hbs, pieces]

theorem pieces_append {size : Nat} {bs : Bytes} (hlen : bs.length = size + 1) (rest : Bytes) :
    pieces size (bs ++ rest) = bs :: pieces size rest := by
  cases bs with
  | nil => simp at hlen
  | cons b bs =>
      have hbs : bs.length = size := by simpa using hlen
      rw [List.cons_append, pieces, List.take_left' hbs, List.drop_left' hbs]

theorem length_xor_of_le {a k : Bytes} (h : a.length ≤ k.length) :
    (xor a k).length = a.length := by
  rw [length_xor, Nat.min_eq_left h]

theorem xor_xor_cancel {a k : Bytes} (h : a.length ≤ k.length) : xor (xor a k) k = a := by
  induction a generalizing k with
  | nil => rfl
  | cons x a ih =>
      cases k with
      | nil => simp at h
      | cons y k =>
          have ht := ih (k := k) (by simpa using h)
          simp only [xor, List.zipWith_cons_cons] at ht ⊢
          rw [ht, UInt8.xor_assoc, UInt8.xor_self, UInt8.xor_zero]

end Bytes

namespace Gcm

open Bytes

variable (permute : Block → Block) (iv : Bytes)

/-! ## The stream from a given counter value on -/

/-- One piece under the block that its number in the text names. -/
def streamPiece (p : Bytes × Nat) : Bytes :=
  xor p.1 (permute (counterBlock iv (p.2 + 2))).toBytes

/-- The data under the key stream from the `n`th block on. -/
def streamFrom (n : Nat) (data : Bytes) : Bytes :=
  ((pieces 15 data).zipIdx n).flatMap (streamPiece permute iv)

theorem streamFrom_nil (n : Nat) : streamFrom permute iv n [] = [] := by
  simp [streamFrom, pieces]

theorem streamFrom_of_length_le {data : Bytes} (n : Nat) (hne : data ≠ [])
    (hlen : data.length ≤ 16) :
    streamFrom permute iv n data = streamPiece permute iv (data, n) := by
  simp [streamFrom, pieces_of_length_le hne hlen]

theorem streamFrom_append {block : Bytes} (n : Nat) (hlen : block.length = 16) (rest : Bytes) :
    streamFrom permute iv n (block ++ rest) =
      streamPiece permute iv (block, n) ++ streamFrom permute iv (n + 1) rest := by
  simp [streamFrom, pieces_append hlen]

theorem length_streamPiece {piece : Bytes} (n : Nat) (hlen : piece.length ≤ 16) :
    (streamPiece permute iv (piece, n)).length = piece.length := by
  apply length_xor_of_le
  rwa [Block.length_toBytes]

theorem streamPiece_streamPiece {piece : Bytes} (n : Nat) (hlen : piece.length ≤ 16) :
    streamPiece permute iv (streamPiece permute iv (piece, n), n) = piece := by
  apply xor_xor_cancel
  rwa [Block.length_toBytes]

/-- Data is empty, a single piece, or a full block before more data. -/
theorem blockwise_induction {motive : Nat → Bytes → Prop} (nil : ∀ n, motive n [])
    (short : ∀ n data, data ≠ [] → data.length ≤ 16 → motive n data)
    (block : ∀ n data rest, data.length = 16 → motive (n + 1) rest → motive n (data ++ rest))
    (n : Nat) (data : Bytes) : motive n data := by
  fun_induction pieces 15 data generalizing n with
  | case1 => exact nil n
  | case2 b bs ih =>
      by_cases hlen : bs.length ≤ 15
      · exact short n (b :: bs) (by simp) (Nat.succ_le_succ hlen)
      · have hsplit : b :: bs = (b :: bs.take 15) ++ bs.drop 15 := by simp
        rw [hsplit]
        refine block n _ _ ?_ (ih (n + 1))
        simp only [List.length_cons, List.length_take]
        omega

theorem length_streamFrom (n : Nat) (data : Bytes) :
    (streamFrom permute iv n data).length = data.length := by
  induction n, data using blockwise_induction with
  | nil n => rw [streamFrom_nil]
  | short n data hne hlen =>
      rw [streamFrom_of_length_le permute iv n hne hlen, length_streamPiece permute iv n hlen]
  | block n data rest hlen ih =>
      rw [streamFrom_append permute iv n hlen, List.length_append, List.length_append, ih,
        length_streamPiece permute iv n (Nat.le_of_eq hlen)]

/-- Each block is undone by its own part of the key stream, since the first pass kept its length. -/
theorem streamFrom_streamFrom (n : Nat) (data : Bytes) :
    streamFrom permute iv n (streamFrom permute iv n data) = data := by
  induction n, data using blockwise_induction with
  | nil n => rw [streamFrom_nil, streamFrom_nil]
  | short n data hne hlen =>
      have hpiece := length_streamPiece permute iv n hlen
      have hne' : streamPiece permute iv (data, n) ≠ [] := by
        intro h
        rw [h] at hpiece
        exact hne (List.length_eq_zero_iff.mp hpiece.symm)
      rw [streamFrom_of_length_le permute iv n hne hlen,
        streamFrom_of_length_le permute iv n hne' (hpiece.symm ▸ hlen),
        streamPiece_streamPiece permute iv n hlen]
  | block n data rest hlen ih =>
      have hpiece := (length_streamPiece permute iv n (Nat.le_of_eq hlen)).trans hlen
      rw [streamFrom_append permute iv n hlen, streamFrom_append permute iv n hpiece, ih,
        streamPiece_streamPiece permute iv n (Nat.le_of_eq hlen)]

@[simp] theorem length_stream (data : Bytes) : (stream permute iv data).length = data.length :=
  length_streamFrom permute iv 0 data

@[simp] theorem stream_stream (data : Bytes) :
    stream permute iv (stream permute iv data) = data :=
  streamFrom_streamFrom permute iv 0 data

/-! ## Sealed data -/

theorem length_encrypt (plaintext : Bytes) :
    (encrypt permute iv plaintext).length = plaintext.length + 16 := by
  simp [encrypt, Block.length_toBytes]

/-- Decryption accepts exactly what encryption makes, and gives back what it was made from. -/
theorem decrypt?_eq_some_iff {sealedData plaintext : Bytes} :
    decrypt? permute iv sealedData = some plaintext ↔
      sealedData = encrypt permute iv plaintext := by
  unfold decrypt? encrypt
  dsimp only
  constructor
  · intro h
    split at h
    · rename_i htag
      obtain rfl := Option.some.inj h
      rw [stream_stream, htag, List.take_append_drop]
    · cases h
  · rintro rfl
    have hlen : ((stream permute iv plaintext ++
        (tag permute iv (stream permute iv plaintext)).toBytes).length - 16) =
          (stream permute iv plaintext).length := by
      simp [Block.length_toBytes]
    rw [hlen, List.take_left, List.drop_left, if_pos rfl, stream_stream]

end Gcm

end Strongbox
