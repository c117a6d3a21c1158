import Mathlib.Algebra.GroupWithZero.Nat
import TemplateVm.Memory.Guarded

set_option autoImplicit false

/-!
# Words in a byte array

What is loaded is what was stored last, as far as the stored number fits, and a store is seen only
where it went.
-/
namespace TemplateVm

theorem toNat_add_neg {p k : UInt64} (h : k.toNat ≤ p.toNat) :
    (p + -k).toNat = p.toNat - k.toNat := by
  rw [← UInt64.sub_eq_add_neg, UInt64.toNat_sub_of_le _ _ (UInt64.le_iff_toNat_le.mpr h)]

theorem toNat_add_of_lt {p k : UInt64} (h : p.toNat + k.toNat < 2 ^ 64) :
    (p + k).toNat = p.toNat + k.toNat := by
  rw [UInt64.toNat_add, Nat.mod_eq_of_lt h]

/-- Clearing low bits goes down to a multiple of a power of two. -/
theorem and_not_low {n k : Nat} (hk : k ≤ 64) (h : n < 2 ^ 64) :
    n &&& (2 ^ 64 - 2 ^ k) = n / 2 ^ k * 2 ^ k := by
  have mask : 2 ^ 64 - 2 ^ k = (2 ^ (64 - k) - 1) <<< k := by
    rw [Nat.shiftLeft_eq, Nat.sub_mul, ← Nat.pow_add, Nat.sub_add_cancel hk, Nat.one_mul]
  have round : n / 2 ^ k * 2 ^ k = (n >>> k) <<< k := by
    rw [Nat.shiftLeft_eq, Nat.shiftRight_eq_div_pow]
  rw [mask, round]
  refine Nat.eq_of_testBit_eq fun i => ?_
  rw [Nat.testBit_and, Nat.testBit_shiftLeft, Nat.testBit_shiftLeft, Nat.testBit_two_pow_sub_one,
    Nat.testBit_shiftRight]
  by_cases low : k ≤ i
  · by_cases high : i < 64
    · simp [low, Nat.add_sub_cancel' low]
      omega
    · have above := Nat.testBit_lt_two_pow
        (Nat.lt_of_lt_of_le h (Nat.pow_le_pow_right (by decide) (Nat.le_of_not_lt high)))
      simp [low, Nat.add_sub_cancel' low, above]
  · simp [low]

theorem toNat_and_neg_sixteen (n : UInt64) : (n &&& -16).toNat = n.toNat / 16 * 16 := by
  have mask : (-16 : UInt64).toNat = 2 ^ 64 - 2 ^ 4 := by decide
  rw [UInt64.toNat_and, mask, and_not_low (by decide) n.toNat_lt]
  rfl

theorem toNat_shiftLeft {n : Nat} {k : UInt8} (hk : k.toNat < 64) (h : 2 ^ k.toNat * n < 2 ^ 64) :
    (n.toUInt64 <<< k.toUInt64).toNat = 2 ^ k.toNat * n := by
  have small : n < 2 ^ 64 := Nat.lt_of_le_of_lt (Nat.le_mul_of_pos_left n (Nat.two_pow_pos _)) h
  rw [UInt64.toNat_shiftLeft, UInt8.toNat_toUInt64, Nat.mod_eq_of_lt hk,
    UInt64.toNat_ofNat_of_lt' small, Nat.shiftLeft_eq, Nat.mul_comm, Nat.mod_eq_of_lt h]

namespace Memory

variable {b b' : ByteArray} {i j k w : Nat} {v : UInt64}

@[simp] theorem size_setByte (b : ByteArray) (i : Nat) (v : UInt8) :
    (setByte b i v).size = b.size := by
  unfold setByte
  split
  · exact Array.size_set ..
  · rfl

theorem byteAt_setByte (b : ByteArray) (i j : Nat) (v : UInt8) :
    byteAt (setByte b i v) j = if i = j ∧ j < b.size then v else byteAt b j := by
  unfold byteAt
  by_cases hj : j < b.size
  · rw [dif_pos (by simpa using hj), dif_pos hj]
    unfold setByte
    by_cases hi : i < b.size
    · simp only [hi, ↓reduceDIte, hj, and_true]
      exact Array.getElem_set ..
    · simp only [hi, ↓reduceDIte, hj, and_true]
      rw [if_neg (by omega)]
  · rw [dif_neg (by simpa using hj), dif_neg hj, if_neg (by omega)]

@[simp] theorem size_store (b : ByteArray) (i : Nat) (v : UInt64) (w : Nat) :
    (store b i v w).size = b.size := by
  induction w generalizing b i v with
  | zero => rfl
  | succ w ih => rw [store, ih, size_setByte]

theorem byteAt_store_of_not (h : j < i ∨ i + w ≤ j) :
    byteAt (store b i v w) j = byteAt b j := by
  induction w generalizing b i v with
  | zero => rfl
  | succ w ih =>
    rw [store, ih (by omega), byteAt_setByte, if_neg (by omega)]

theorem load_congr (h : ∀ j, i ≤ j → j < i + w → byteAt b' j = byteAt b j) :
    load b' i w = load b i w := by
  induction w generalizing i with
  | zero => rfl
  | succ w ih =>
    rw [load, load, h i (Nat.le_refl i) (by omega), ih fun j h₁ h₂ => h j (by omega) (by omega)]

theorem load_store_of_disjoint (h : j + k ≤ i ∨ i + w ≤ j) :
    load (store b i v w) j k = load b j k :=
  load_congr fun _ h₁ h₂ => byteAt_store_of_not (by omega)

/-! ## Loads as natural numbers -/

theorem toNat_or_shiftLeft (x : UInt8) {y : UInt64} (h : y.toNat < 2 ^ 56) :
    (x.toUInt64 ||| (y <<< 8)).toNat = x.toNat + 256 * y.toNat := by
  have hx : x.toNat < 2 ^ 8 := x.toNat_lt
  have hy : (y <<< 8).toNat = y.toNat <<< 8 := by
    rw [UInt64.toNat_shiftLeft]
    change y.toNat <<< 8 % 2 ^ 64 = _
    rw [Nat.shiftLeft_eq, Nat.mod_eq_of_lt (by omega)]
  rw [UInt64.toNat_or, hy, UInt8.toNat_toUInt64, Nat.or_comm, ← Nat.shiftLeft_add_eq_or_of_lt hx,
    Nat.shiftLeft_eq]
  omega

theorem load_lt (h : w ≤ 8) : (load b i w).toNat < 256 ^ w := by
  induction w generalizing i with
  | zero => simp [load]
  | succ w ih =>
    have below := ih (i := i + 1) (by omega)
    have bound : (256 : Nat) ^ w ≤ 256 ^ 7 := Nat.pow_le_pow_right (by decide) (by omega)
    have hb : (byteAt b i).toNat < 2 ^ 8 := (byteAt b i).toNat_lt
    rw [load, toNat_or_shiftLeft _ (by omega), Nat.pow_succ]
    omega

theorem load_succ (h : w < 8) :
    (load b i (w + 1)).toNat = (byteAt b i).toNat + 256 * (load b (i + 1) w).toNat := by
  have below := load_lt (b := b) (i := i + 1) (Nat.le_of_lt h)
  have bound : (256 : Nat) ^ w ≤ 256 ^ 7 := Nat.pow_le_pow_right (by decide) (by omega)
  rw [load, toNat_or_shiftLeft _ (by omega)]

theorem toNat_shiftRight_eight (v : UInt64) : (v >>> 8).toNat = v.toNat / 256 := by
  rw [UInt64.toNat_shiftRight]
  exact Nat.shiftRight_eq_div_pow _ 8

/-- The lowest byte is stored first. -/
theorem byteAt_store (h : k < w) (hb : i + k < b.size) :
    byteAt (store b i v w) (i + k) = (v.toNat / 256 ^ k).toUInt8 := by
  induction w generalizing b i v k with
  | zero => omega
  | succ w ih =>
    rw [store]
    cases k with
    | zero =>
      rw [byteAt_store_of_not (Or.inl (by omega)), byteAt_setByte, if_pos ⟨rfl, hb⟩,
        Nat.pow_zero, Nat.div_one]
      rfl
    | succ k =>
      rw [show i + (k + 1) = i + 1 + k by omega, ih (by omega) (by rw [size_setByte]; omega),
        toNat_shiftRight_eight, Nat.div_div_eq_div_mul, Nat.pow_succ']

/-- What is loaded is what was stored, modulo what the width can hold. -/
theorem load_store (h : w ≤ 8) (hb : i + w ≤ b.size) :
    (load (store b i v w) i w).toNat = v.toNat % 256 ^ w := by
  induction w generalizing b i v with
  | zero => simp [load, Nat.mod_one]
  | succ w ih =>
    have first : byteAt (store b i v (w + 1)) i = v.toUInt8 := by
      rw [store, byteAt_store_of_not (Or.inl (Nat.lt_succ_self i)), byteAt_setByte,
        if_pos ⟨rfl, by omega⟩]
    have low : v.toUInt8.toNat = v.toNat % 256 := rfl
    rw [load_succ (by omega), first, store, ih (by omega) (by simp; omega), toNat_shiftRight_eight,
      low, Nat.pow_succ, Nat.mul_comm (256 ^ w), Nat.mod_mul]

/-- The low part of a loaded number. -/
theorem load_mod (h : k ≤ w) (hw : w ≤ 8) :
    (load b i k).toNat = (load b i w).toNat % 256 ^ k := by
  induction k generalizing i w with
  | zero => simp [load, Nat.mod_one]
  | succ k ih =>
    obtain ⟨w, rfl⟩ : ∃ w', w = w' + 1 := ⟨w - 1, by omega⟩
    have hb : (byteAt b i).toNat < 256 := (byteAt b i).toNat_lt
    rw [load_succ (by omega), load_succ (by omega), ih (w := w) (by omega) (by omega),
      Nat.pow_succ, Nat.mul_comm (256 ^ k), Nat.mod_mul, Nat.add_mul_mod_self_left,
      Nat.mod_eq_of_lt hb, Nat.add_mul_div_left _ _ (by decide), Nat.div_eq_of_lt hb, Nat.zero_add]

/-! ## Loads as words -/

theorem load_one (b : ByteArray) (i : Nat) : load b i 1 = (byteAt b i).toUInt64 := by
  simp [load]

theorem load_store_double (hb : i + 8 ≤ b.size) : load (store b i v 8) i 8 = v := by
  refine UInt64.toNat_inj.mp ?_
  rw [load_store (Nat.le_refl 8) hb]
  exact Nat.mod_eq_of_lt v.toNat_lt

theorem load_store_word (hb : i + 4 ≤ b.size) :
    load (store b i v 4) i 4 = v.toUInt32.toUInt64 := by
  refine UInt64.toNat_inj.mp ?_
  rw [load_store (by decide) hb]
  rfl

theorem load_store_half (hb : i + 2 ≤ b.size) :
    load (store b i v 2) i 2 = v.toUInt16.toUInt64 := by
  refine UInt64.toNat_inj.mp ?_
  rw [load_store (by decide) hb]
  rfl

theorem load_store_byte (hb : i + 1 ≤ b.size) :
    load (store b i v 1) i 1 = v.toUInt8.toUInt64 := by
  refine UInt64.toNat_inj.mp ?_
  rw [load_store (by decide) hb]
  rfl

theorem load_eq_zero (zero : ∀ j, i ≤ j → j < i + w → byteAt b j = 0) : load b i w = 0 := by
  induction w generalizing i with
  | zero => rfl
  | succ w ih =>
    rw [load, zero i (Nat.le_refl i) (by omega), ih fun j h₁ h₂ => zero j (by omega) (by omega)]
    rfl

theorem load_of_zero (zero : ∀ j, byteAt b j = 0) (i w : Nat) : load b i w = 0 :=
  load_eq_zero fun j _ _ => zero j

theorem byteAt_replicate (n j : Nat) : byteAt ⟨Array.replicate n 0⟩ j = 0 := by
  unfold byteAt
  split
  · exact Array.getElem_replicate ..
  · rfl

theorem load_word_of_double (b : ByteArray) (i : Nat) :
    load b i 4 = (load b i 8).toUInt32.toUInt64 := by
  refine UInt64.toNat_inj.mp ?_
  rw [load_mod (w := 8) (by decide) (by decide)]
  rfl

/-! ## Zeros -/

theorem toList_zeros (n : Nat) : (zeros n).data.toList = List.replicate n 0 := by
  induction n using Nat.strongRecOn with
  | _ n ih =>
    unfold zeros
    split
    · next zero =>
      rw [zero]
      rfl
    · next positive =>
      have half := ih (n / 2) (by omega)
      have twice : (zeros (n / 2) ++ zeros (n / 2)).data.toList =
          List.replicate (n / 2 + n / 2) 0 := by
        rw [ByteArray.data_append, Array.toList_append, half, List.replicate_append_replicate]
      dsimp only
      split
      · next even =>
        rw [twice, show n / 2 + n / 2 = n by omega]
      · next odd =>
        rw [ByteArray.data_push, Array.toList_push, twice, ← List.replicate_succ',
          show n / 2 + n / 2 + 1 = n by omega]

theorem size_zeros (n : Nat) : (zeros n).size = n := by
  have length : (zeros n).data.toList.length = n := by rw [toList_zeros, List.length_replicate]
  exact length

theorem byteAt_zeros (n j : Nat) : byteAt (zeros n) j = 0 := by
  unfold byteAt
  split
  · next inside =>
    have found : (zeros n)[j] ∈ (zeros n).data.toList := Array.getElem_mem_toList inside
    rw [toList_zeros] at found
    exact List.eq_of_mem_replicate found
  · rfl

theorem load_zeros (n j w : Nat) : load (zeros n) j w = 0 := load_of_zero (byteAt_zeros n) j w

end Memory
end TemplateVm
