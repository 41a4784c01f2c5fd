import Mathlib.Logic.Function.Basic
import Strongbox.Aes.Cipher

/-! # AES permutes blocks

Every layer of a round is injective, and so is the whole cipher under any list of round keys. Mixing
a column four times gives it back, because doubling respects the exclusive or. -/

namespace Strongbox.Aes

open Function

/-! ## Exclusive or -/

theorem xor_left_comm (a b c : UInt8) : a ^^^ (b ^^^ c) = b ^^^ (a ^^^ c) := by
  rw [← UInt8.xor_assoc, UInt8.xor_comm a, UInt8.xor_assoc]

theorem xor_xor_cancel_left (a b : UInt8) : a ^^^ (a ^^^ b) = b := by
  rw [← UInt8.xor_assoc, UInt8.xor_self, UInt8.zero_xor]

theorem xor_right_injective (k : UInt8) : Injective (· ^^^ k) := by
  intro a b h
  have hk : (a ^^^ k) ^^^ k = (b ^^^ k) ^^^ k := congrArg (· ^^^ k) h
  simpa only [UInt8.xor_assoc, UInt8.xor_self, UInt8.xor_zero] using hk

/-! ## Mixing a column -/

namespace Column

theorem toBitVec_double (b : UInt8) :
    (double b).toBitVec = b.toBitVec <<< 1 ^^^ if b.toBitVec.msb then 0x1b#8 else 0#8 := by
  have key : ∀ i : Fin 256, (double (UInt8.ofFin i)).toBitVec =
      (UInt8.ofFin i).toBitVec <<< 1 ^^^
        if (UInt8.ofFin i).toBitVec.msb then 0x1b#8 else 0#8 := by
    decide +kernel
  exact key b.toFin

theorem double_xor (a b : UInt8) : double (a ^^^ b) = double a ^^^ double b := by
  have hmsb : (if (a ^^^ b).toBitVec.msb then 0x1b#8 else 0#8) =
      (if a.toBitVec.msb then 0x1b#8 else 0#8) ^^^ if b.toBitVec.msb then 0x1b#8 else 0#8 := by
    rw [UInt8.toBitVec_xor, BitVec.msb_xor]
    cases a.toBitVec.msb <;> cases b.toBitVec.msb <;> rfl
  apply UInt8.toBitVec_inj.mp
  rw [UInt8.toBitVec_xor, toBitVec_double, toBitVec_double, toBitVec_double, hmsb,
    UInt8.toBitVec_xor, BitVec.shiftLeft_xor_distrib]
  ac_rfl

/-- A byte after two mixings: only the byte two places on is left beside it. -/
def twice (a c : UInt8) : UInt8 :=
  double (double a) ^^^ a ^^^ double (double c)

theorem blend_blend (a b c d : UInt8) :
    blend (blend a b c d) (blend b c d a) (blend c d a b) (blend d a b c) = twice a c := by
  simp only [blend, twice, double_xor]
  simp only [UInt8.xor_assoc, UInt8.xor_comm, xor_left_comm, xor_xor_cancel_left]

theorem mix_mix (c : Column) :
    c.mix.mix = ⟨twice c.b0 c.b2, twice c.b1 c.b3, twice c.b2 c.b0, twice c.b3 c.b1⟩ := by
  simp only [mix, blend_blend]

theorem twice_twice (a c : UInt8) : twice (twice a c) (twice c a) = a := by
  simp only [twice, double_xor]
  simp only [UInt8.xor_assoc, UInt8.xor_comm, xor_left_comm, xor_xor_cancel_left, UInt8.xor_self,
    UInt8.xor_zero]

theorem mix_mix_mix_mix (c : Column) : c.mix.mix.mix.mix = c := by
  simp only [mix_mix, twice_twice]

theorem mix_injective : Injective mix := by
  intro c d h
  rw [← mix_mix_mix_mix c, h, mix_mix_mix_mix]

/-- A layer that treats each byte by itself. -/
theorem injective_of_bytes {f0 f1 f2 f3 : UInt8 → UInt8} (h0 : Injective f0) (h1 : Injective f1)
    (h2 : Injective f2) (h3 : Injective f3) :
    Injective fun c : Column => (⟨f0 c.b0, f1 c.b1, f2 c.b2, f3 c.b3⟩ : Column) := by
  rintro ⟨a0, a1, a2, a3⟩ ⟨b0, b1, b2, b3⟩ h
  obtain ⟨e0, e1, e2, e3⟩ := Column.mk.inj h
  rw [Column.mk.injEq]
  exact ⟨h0 e0, h1 e1, h2 e2, h3 e3⟩

theorem sub_injective : Injective sub :=
  injective_of_bytes (fun _ _ => subByte_injective) (fun _ _ => subByte_injective)
    (fun _ _ => subByte_injective) fun _ _ => subByte_injective

theorem xor_injective (k : Column) : Injective (· ^^^ k) :=
  injective_of_bytes (xor_right_injective k.b0) (xor_right_injective k.b1)
    (xor_right_injective k.b2) (xor_right_injective k.b3)

end Column

/-! ## The rounds -/

namespace State

/-- A layer that treats each column by itself. -/
theorem injective_of_columns {f0 f1 f2 f3 : Column → Column} (h0 : Injective f0)
    (h1 : Injective f1) (h2 : Injective f2) (h3 : Injective f3) :
    Injective fun s : State => (⟨f0 s.c0, f1 s.c1, f2 s.c2, f3 s.c3⟩ : State) := by
  rintro ⟨a0, a1, a2, a3⟩ ⟨b0, b1, b2, b3⟩ h
  obtain ⟨e0, e1, e2, e3⟩ := State.mk.inj h
  rw [State.mk.injEq]
  exact ⟨h0 e0, h1 e1, h2 e2, h3 e3⟩

theorem sub_injective : Injective sub :=
  injective_of_columns Column.sub_injective Column.sub_injective Column.sub_injective
    Column.sub_injective

theorem mix_injective : Injective mix :=
  injective_of_columns Column.mix_injective Column.mix_injective Column.mix_injective
    Column.mix_injective

theorem shiftRows_injective : Injective shiftRows := by
  rintro ⟨⟨a0, a1, a2, a3⟩, ⟨b0, b1, b2, b3⟩, ⟨c0, c1, c2, c3⟩, ⟨d0, d1, d2, d3⟩⟩
    ⟨⟨a0', a1', a2', a3'⟩, ⟨b0', b1', b2', b3'⟩, ⟨c0', c1', c2', c3'⟩, ⟨d0', d1', d2', d3'⟩⟩ h
  simp only [shiftRows, State.mk.injEq, Column.mk.injEq] at h
  simp [h]

theorem xor_injective (k : State) : Injective (· ^^^ k) :=
  injective_of_columns (Column.xor_injective k.c0) (Column.xor_injective k.c1)
    (Column.xor_injective k.c2) (Column.xor_injective k.c3)

theorem length_toBytes (s : State) : s.toBytes.length = 16 :=
  rfl

theorem ofBytes_toBytes (s : State) : State.ofBytes s.toBytes = s :=
  rfl

theorem toBytes_injective : Injective toBytes :=
  Function.LeftInverse.injective ofBytes_toBytes

theorem toBytes_ofBytes {bs : Bytes} (hlen : bs.length = 16) : (State.ofBytes bs).toBytes = bs := by
  match bs, hlen with
  | [_, _, _, _, _, _, _, _, _, _, _, _, _, _, _, _], _ => rfl

end State

theorem middleRound_injective (k : State) : Injective (middleRound k) := by
  intro s t h
  have hmixed := State.mix_injective (State.xor_injective k h)
  exact State.sub_injective (State.shiftRows_injective hmixed)

theorem lastRound_injective (k : State) : Injective (lastRound k) := by
  intro s t h
  exact State.sub_injective (State.shiftRows_injective (State.xor_injective k h))

theorem rounds_injective (ks : List State) : Injective (rounds ks) := by
  intro s t h
  fun_induction rounds ks s generalizing t with
  | case1 s => exact h
  | case2 k s => exact lastRound_injective k h
  | case3 k ks s hks ih =>
      rw [rounds.eq_3 _ _ _ hks] at h
      exact middleRound_injective k (ih h)

theorem encrypt_injective (ks : List State) : Injective (encrypt ks) := by
  cases ks with
  | nil => exact fun _ _ h => h
  | cons k ks => exact (rounds_injective ks).comp (State.xor_injective k)

end Strongbox.Aes
