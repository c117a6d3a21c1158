import Mathlib.Algebra.Group.Int.Defs
import Mathlib.Algebra.GroupWithZero.Nat
import TemplateVm.Machine.Cpu

set_option autoImplicit false

/-!
# What conditions say

After a comparison each condition is a relation between the two words: `Relates` says which, in
numbers, and `holds_ofCompare` that it is the one. The sign of a difference is wrong exactly where
the difference has wrapped, which is why the signed order needs two flags. After a test there are
four conditions that describe the word, and every condition but `al` has an opposite.
-/
namespace TemplateVm

/-! ## Signs -/

/-- The sign of a word. -/
def signBit (n : UInt64) : Bool := n.toBitVec.msb

section
variable (n k : UInt64)

theorem signBit_and : signBit (n &&& k) = (signBit n && signBit k) := by
  simp [signBit]

theorem signBit_xor : signBit (n ^^^ k) = (signBit n != signBit k) := by
  simp [signBit]

theorem signBit_eq : signBit n = decide (n.toInt64.toInt < 0) := BitVec.msb_eq_toInt

theorem shiftRight_eq_one : (n >>> 63 == 1) = signBit n := by
  have bound := n.toNat_lt
  have shifted : (n >>> 63).toNat = n.toNat / 2 ^ 63 := by simp [Nat.shiftRight_eq_div_pow]
  have one : (n >>> 63 == 1) = decide ((n >>> 63).toNat = 1) := by
    rw [Bool.eq_iff_iff]
    simp [← UInt64.toNat_inj]
  rw [one, shifted, signBit, BitVec.msb_eq_decide, decide_eq_decide]
  change _ ↔ 2 ^ 63 ≤ n.toNat
  omega

theorem lt_zero : decide (n.toInt64 < 0) = decide (n.toInt64.toInt < 0) :=
  decide_eq_decide.mpr Int64.lt_iff_toInt_lt

theorem toInt_bounds : -2 ^ 63 ≤ n.toInt64.toInt ∧ n.toInt64.toInt < 2 ^ 63 :=
  ⟨n.toInt64.le_toInt, n.toInt64.toInt_lt⟩

/-- Words are the same if they are the same numbers with a sign. -/
theorem eq_iff_toInt : n = k ↔ n.toInt64.toInt = k.toInt64.toInt :=
  ⟨fun h => h ▸ rfl, fun h => congrArg Int64.toUInt64 (Int64.toInt_inj.mp h)⟩

theorem toInt_sub : (n - k).toInt64.toInt = (n.toInt64.toInt - k.toInt64.toInt).bmod (2 ^ 64) :=
  Int64.toInt_sub n.toInt64 k.toInt64

/-- The difference of two words wraps at most once. -/
theorem bmod_difference : (n.toInt64.toInt - k.toInt64.toInt).bmod (2 ^ 64) =
    if n.toInt64.toInt - k.toInt64.toInt < -2 ^ 63 then
      n.toInt64.toInt - k.toInt64.toInt + 2 ^ 64
    else if 2 ^ 63 ≤ n.toInt64.toInt - k.toInt64.toInt then
      n.toInt64.toInt - k.toInt64.toInt - 2 ^ 64
    else n.toInt64.toInt - k.toInt64.toInt := by
  obtain ⟨low, high⟩ := toInt_bounds n
  obtain ⟨low', high'⟩ := toInt_bounds k
  have words : ((2 ^ 64 : Nat) : Int) = 2 ^ 64 := rfl
  rw [Int.bmod_def, words]
  omega

end

/-! ## The flags of a comparison -/

namespace Flags

variable (a b : UInt64)

theorem ofCompare_z : (ofCompare a b).z = decide (a = b) := by
  change (a - b == 0) = _
  rw [Bool.eq_iff_iff, beq_iff_eq, decide_eq_true_iff, UInt64.sub_eq_iff_eq_add, UInt64.zero_add]

theorem ofCompare_c : (ofCompare a b).c = decide (b.toNat ≤ a.toNat) :=
  decide_eq_decide.mpr UInt64.le_iff_toNat_le

theorem ofCompare_n : (ofCompare a b).n =
    decide ((a.toInt64.toInt - b.toInt64.toInt).bmod (2 ^ 64) < 0) := by
  change decide ((a - b).toInt64 < 0) = _
  rw [lt_zero, toInt_sub]

/-- The signs of the words differ, and that of the difference is not the first one's, exactly where
    the difference wraps. -/
theorem ofCompare_v : (ofCompare a b).v =
    decide (a.toInt64.toInt - b.toInt64.toInt < -2 ^ 63 ∨
      2 ^ 63 ≤ a.toInt64.toInt - b.toInt64.toInt) := by
  obtain ⟨low, high⟩ := toInt_bounds a
  obtain ⟨low', high'⟩ := toInt_bounds b
  change (((a ^^^ b) &&& (a ^^^ (a - b))) >>> 63 == 1) = _
  rw [shiftRight_eq_one, signBit_and, signBit_xor, signBit_xor, signBit_eq, signBit_eq, signBit_eq,
    toInt_sub, bmod_difference, Bool.eq_iff_iff]
  simp only [Bool.and_eq_true, bne_iff_ne, ne_eq, decide_eq_decide, decide_eq_true_eq]
  omega

/-- A difference that has wrapped has the wrong sign, and any other the right one. -/
theorem ofCompare_lt : ((ofCompare a b).n != (ofCompare a b).v) =
    decide (a.toInt64.toInt < b.toInt64.toInt) := by
  obtain ⟨low, high⟩ := toInt_bounds a
  obtain ⟨low', high'⟩ := toInt_bounds b
  rw [ofCompare_n, ofCompare_v, bmod_difference, Bool.eq_iff_iff]
  simp only [bne_iff_ne, ne_eq, decide_eq_decide, decide_eq_true_eq]
  omega

/-- What the four conditions that read a sign and a zero say about a word. -/
structure Describes (f : Flags) (n : UInt64) : Prop where
  eq : Condition.eq.holds f = true ↔ n = 0
  ne : Condition.ne.holds f = true ↔ n ≠ 0
  mi : Condition.mi.holds f = true ↔ n.toInt64.toInt < 0
  pl : Condition.pl.holds f = true ↔ 0 ≤ n.toInt64.toInt

theorem describes_ofTest (n : UInt64) : (ofTest n).Describes n := by
  constructor <;> simp [Condition.holds, ofTest, lt_zero]

end Flags

/-! ## Conditions -/

namespace Condition

/-- What a condition says about two words that are compared: whether they are the same, their order
    with a sign or without, the sign of the difference as it wraps, and whether it does. -/
def Relates (a b : UInt64) : Condition → Prop
  | eq => a = b
  | ne => a ≠ b
  | hs => b.toNat ≤ a.toNat
  | lo => a.toNat < b.toNat
  | hi => b.toNat < a.toNat
  | ls => a.toNat ≤ b.toNat
  | ge => b.toInt64.toInt ≤ a.toInt64.toInt
  | lt => a.toInt64.toInt < b.toInt64.toInt
  | gt => b.toInt64.toInt < a.toInt64.toInt
  | le => a.toInt64.toInt ≤ b.toInt64.toInt
  | mi => (a.toInt64.toInt - b.toInt64.toInt).bmod (2 ^ 64) < 0
  | pl => 0 ≤ (a.toInt64.toInt - b.toInt64.toInt).bmod (2 ^ 64)
  | vs => a.toInt64.toInt - b.toInt64.toInt < -2 ^ 63 ∨ 2 ^ 63 ≤ a.toInt64.toInt - b.toInt64.toInt
  | vc => -2 ^ 63 ≤ a.toInt64.toInt - b.toInt64.toInt ∧ a.toInt64.toInt - b.toInt64.toInt < 2 ^ 63
  | al => True

theorem holds_ofCompare (k : Condition) (a b : UInt64) :
    k.holds (.ofCompare a b) = true ↔ k.Relates a b := by
  have same := Flags.ofCompare_z a b
  have carry := Flags.ofCompare_c a b
  have less := Flags.ofCompare_lt a b
  have words : a = b ↔ a.toNat = b.toNat := UInt64.toNat_inj.symm
  have numbers := eq_iff_toInt a b
  have equal (f : Flags) : (f.n == f.v) = !(f.n != f.v) := (Bool.not_not _).symm
  cases k with
  | eq | ne => simp [holds, Relates, same]
  | hs | lo => simp [holds, Relates, carry]
  | mi | pl => simp [holds, Relates, Flags.ofCompare_n]
  | vs | vc => simp [holds, Relates, Flags.ofCompare_v]
  | lt => simp [holds, Relates, less]
  | ge => simp [holds, Relates, equal, less]
  | hi | ls =>
    simp only [holds, Relates, same, carry, words, Bool.and_eq_true, Bool.or_eq_true,
      Bool.not_eq_true', decide_eq_true_eq, decide_eq_false_iff_not]
    omega
  | gt | le =>
    simp only [holds, Relates, equal, same, less, numbers, Bool.and_eq_true, Bool.or_eq_true,
      Bool.not_eq_true', decide_eq_true_eq, decide_eq_false_iff_not]
    omega
  | al => simp [holds, Relates]

theorem holds_ne (n k : UInt64) : Condition.ne.holds (.ofCompare n k) = (n != k) := by
  rw [Bool.eq_iff_iff, holds_ofCompare, bne_iff_ne]
  rfl

theorem holds_eq (n k : UInt64) : Condition.eq.holds (.ofCompare n k) = (n == k) := by
  rw [← Bool.not_inj_iff, ← bne, ← holds_ne]
  rfl

theorem holds_invert {k : Condition} (f : Flags) (h : k ≠ .al) :
    k.invert.holds f = !k.holds f := by
  cases k <;> first | exact absurd rfl h | simp [invert, holds, bne]

end Condition
end TemplateVm
