import Mathlib.Tactic.IntervalCases
import TemplateVm.Codegen.SignatureHandler
import TemplateVm.Native.Bridge

set_option autoImplicit false

/-!
# Formats of native calls

A format is found again in the half word that it is packed into, and the argument registers that it
selects are the arguments in the order in which they are declared, each from the file of its kind.
-/
namespace TemplateVm.Native

namespace ArgumentKind

theorem code_toNat (k : ArgumentKind) : k.code.toNat = k.ctorIdx := by cases k <;> rfl

theorem ctorIdx_lt (k : ArgumentKind) : k.ctorIdx < 4 := by cases k <;> decide

theorem getD_ctorIdx (k : ArgumentKind) : all.getD k.ctorIdx word = k := by cases k <;> rfl

/-- What is passed of a register: only the low half, if no more belongs to the argument. -/
def narrow (k : ArgumentKind) (n : UInt64) : UInt64 :=
  match k with
  | .int | .float => n.toUInt32.toUInt64
  | _ => n

end ArgumentKind

theorem ResultKind.code_toNat (r : ResultKind) : r.code.toNat = r.ctorIdx := by cases r <;> rfl

theorem ResultKind.ctorIdx_lt (r : ResultKind) : r.ctorIdx < 5 := by cases r <;> decide

theorem ResultKind.getElem?_ctorIdx (r : ResultKind) : all[r.ctorIdx]? = some r := by
  cases r <;> rfl

namespace CallFormat

/-! ## Packing -/

/-- The kinds as digits of base four, the first one lowest. -/
def digits : List ArgumentKind → Nat
  | [] => 0
  | k :: ks => k.ctorIdx + 4 * digits ks

theorem digits_lt (ks : List ArgumentKind) : digits ks < 4 ^ ks.length := by
  induction ks with
  | nil => decide
  | cons k ks ih =>
    have := k.ctorIdx_lt
    simp only [digits, List.length_cons, Nat.pow_succ]
    omega

theorem digits_digit {ks : List ArgumentKind} {i : Nat} {k : ArgumentKind} (h : ks[i]? = some k) :
    digits ks / 4 ^ i % 4 = k.ctorIdx := by
  induction ks generalizing i with
  | nil => simp at h
  | cons k' ks ih =>
    have lt := k'.ctorIdx_lt
    cases i with
    | zero =>
      simp only [List.getElem?_cons_zero, Option.some.injEq] at h
      subst h
      simp only [digits, Nat.pow_zero, Nat.div_one]
      omega
    | succ i =>
      rw [List.getElem?_cons_succ] at h
      rw [← ih h, digits, Nat.pow_succ, Nat.mul_comm (4 ^ i), ← Nat.div_div_eq_div_mul]
      congr 2
      omega

/-- One kind more, above the bits that are there. -/
theorem or_shift_toNat {bits code : UInt32} {n : Nat} (hn : n ≤ 18) (low : bits.toNat < 2 ^ n)
    (small : code.toNat < 4) :
    (bits ||| code <<< n.toUInt32).toNat = bits.toNat + 2 ^ n * code.toNat := by
  have amount : n.toUInt32.toNat % 32 = n := by
    rw [UInt32.toNat_ofNat_of_lt' (by change n < 2 ^ 32; omega)]
    omega
  have bound : 2 ^ n ≤ 2 ^ 18 := Nat.pow_le_pow_right (by decide) hn
  have shifted : (code <<< n.toUInt32).toNat = 2 ^ n * code.toNat := by
    rw [UInt32.toNat_shiftLeft, amount, Nat.shiftLeft_eq, Nat.mul_comm]
    refine Nat.mod_eq_of_lt (Nat.lt_of_le_of_lt (Nat.mul_le_mul bound (Nat.le_of_lt small)) ?_)
    decide
  rw [UInt32.toNat_or, shifted, Nat.or_comm, ← Nat.two_pow_add_eq_or_of_lt low, Nat.add_comm]

/-- The bits of the kinds from a position on, above those of the ones before. -/
theorem kinds_toNat (ks : List ArgumentKind) {s : Nat} {bits : UInt32} (hs : s + ks.length ≤ 8)
    (low : bits.toNat < 2 ^ (4 + 2 * s)) :
    ((ks.zipIdx s).foldl
      (fun bits (k, i) => bits ||| (k.code <<< (4 + 2 * i).toUInt32)) bits).toNat =
        bits.toNat + 2 ^ (4 + 2 * s) * digits ks := by
  induction ks generalizing s bits with
  | nil => rfl
  | cons k ks ih =>
    rw [List.length_cons] at hs
    have lt := k.ctorIdx_lt
    have one := or_shift_toNat (n := 4 + 2 * s) (by omega) low (k.code_toNat.symm ▸ lt)
    rw [k.code_toNat] at one
    have power : 2 ^ (4 + 2 * (s + 1)) = 2 ^ (4 + 2 * s) * 4 := by
      rw [show 4 + 2 * (s + 1) = 4 + 2 * s + 2 from by omega, Nat.pow_add]
    rw [List.zipIdx_cons, List.foldl_cons, ih (by omega), one, digits, power, Nat.mul_add,
      Nat.add_assoc, Nat.mul_assoc]
    rw [one, power]
    have := Nat.mul_le_mul_left (2 ^ (4 + 2 * s)) (Nat.le_pred_of_lt lt)
    simp only [Nat.pred_eq_sub_one] at this
    omega

theorem pack_toNat {f : CallFormat} (h : f.arguments.length ≤ maxArguments) :
    f.pack.toNat =
      f.arguments.length + 16 * digits f.arguments + 2 ^ 24 * f.result.ctorIdx := by
  have count : f.arguments.length.toUInt32.toNat = f.arguments.length :=
    UInt32.toNat_ofNat_of_lt' (Nat.lt_of_le_of_lt h (by decide))
  have kinds := kinds_toNat f.arguments (by rw [Nat.zero_add]; exact h)
    (show f.arguments.length.toUInt32.toNat < _ from count ▸ Nat.lt_of_le_of_lt h (by decide))
  rw [count] at kinds
  have small : digits f.arguments < 4 ^ 8 :=
    Nat.lt_of_lt_of_le (digits_lt f.arguments) (Nat.pow_le_pow_right (by decide) h)
  have result := f.result.ctorIdx_lt
  have shifted : (f.result.code <<< 24).toNat = 2 ^ 24 * f.result.ctorIdx := by
    rw [UInt32.toNat_shiftLeft, f.result.code_toNat, Nat.shiftLeft_eq]
    change f.result.ctorIdx * 2 ^ 24 % 2 ^ 32 = _
    omega
  have length : f.arguments.length ≤ 8 := h
  unfold pack
  rw [UInt32.toNat_or, shifted, kinds, Nat.or_comm, ← Nat.two_pow_add_eq_or_of_lt (by omega)]
  omega

/-- A packed format is unpacked to itself. -/
theorem unpack_pack {f : CallFormat} (h : f.arguments.length ≤ maxArguments) :
    unpack f.pack = .ok f := by
  have packed := pack_toNat h
  have length : f.arguments.length ≤ 8 := h
  have small : digits f.arguments < 4 ^ 8 :=
    Nat.lt_of_lt_of_le (digits_lt f.arguments) (Nat.pow_le_pow_right (by decide) h)
  have lt := f.result.ctorIdx_lt
  have count : (f.pack &&& 0xf).toNat = f.arguments.length := by
    rw [UInt32.toNat_and, packed]
    change _ &&& (2 ^ 4 - 1) = _
    rw [Nat.and_two_pow_sub_one_eq_mod]
    omega
  have result : ResultKind.ofCode? ((f.pack >>> 24) &&& 0xf) = some f.result := by
    have code : ((f.pack >>> 24) &&& 0xf).toNat = f.result.ctorIdx := by
      rw [UInt32.toNat_and, UInt32.toNat_shiftRight, packed]
      change _ >>> 24 &&& (2 ^ 4 - 1) = _
      rw [Nat.and_two_pow_sub_one_eq_mod, Nat.shiftRight_eq_div_pow]
      omega
    rw [ResultKind.ofCode?, code, f.result.getElem?_ctorIdx]
  have kind {i : Nat} {k : ArgumentKind} (hi : f.arguments[i]? = some k) :
      ArgumentKind.ofCode (f.pack >>> (4 + 2 * i).toUInt32) = k := by
    have digit := digits_digit hi
    have below : i < 8 :=
      Nat.lt_of_lt_of_le (List.getElem?_eq_some_iff.mp hi).1 length
    have amount : (4 + 2 * i).toUInt32.toNat % 32 = 4 + 2 * i := by
      rw [UInt32.toNat_ofNat_of_lt' (by change _ < 2 ^ 32; omega)]
      omega
    have code : (f.pack >>> (4 + 2 * i).toUInt32 &&& 3).toNat = k.ctorIdx := by
      rw [UInt32.toNat_and, UInt32.toNat_shiftRight, amount, packed]
      change _ >>> (4 + 2 * i) &&& (2 ^ 2 - 1) = _
      rw [Nat.and_two_pow_sub_one_eq_mod, Nat.shiftRight_eq_div_pow, ← digit]
      clear digit
      interval_cases i <;> omega
    rw [ArgumentKind.ofCode, code, k.getD_ctorIdx]
  have kinds : (List.range f.arguments.length).map
      (fun i => ArgumentKind.ofCode (f.pack >>> (4 + 2 * i).toUInt32)) = f.arguments := by
    refine List.ext_getElem (by simp) fun i _ hi => ?_
    rw [List.getElem_map, List.getElem_range]
    exact kind (List.getElem?_eq_getElem hi)
  unfold unpack
  simp only [count, result, kinds, Nat.not_lt.mpr h, ↓reduceIte]

/-! ## Formats of methods -/

variable {d : MethodDescriptor}

/-- The format of a native method with its parameters. -/
def ofMethod (d : MethodDescriptor) : CallFormat :=
  ⟨.word :: .word :: d.parameters.map ArgumentKind.ofType, .ofType d.result⟩

theorem ofDescriptor_ok (h : d.parameters.length ≤ Signature.maxParameters) :
    ofDescriptor d = .ok (ofMethod d) := by
  have few : d.parameters.length ≤ 6 := h
  refine if_neg ?_
  simp only [List.length_cons, List.length_map, maxArguments]
  omega

end CallFormat

/-! ## Registers -/

namespace Arguments

/-- The kinds with what registers hold for them. -/
abbrev Slots := List (ArgumentKind × UInt64)

/-- What the registers of one file hold, from the first one on. -/
def ofFile (slots : Slots) (floating : Bool) : List UInt64 :=
  (slots.filter (·.1.isFloating == floating)).map (·.2)

@[simp] theorem ofFile_nil (floating : Bool) : ofFile [] floating = [] := rfl

theorem ofFile_cons (k : ArgumentKind) (n : UInt64) (slots : Slots) (floating : Bool) :
    ofFile ((k, n) :: slots) floating =
      if k.isFloating = floating then n :: ofFile slots floating else ofFile slots floating := by
  unfold ofFile
  by_cases h : k.isFloating = floating <;> simp [h]

theorem length_ofFile (slots : Slots) (floating : Bool) :
    (ofFile slots floating).length ≤ slots.length := by
  rw [ofFile, List.length_map]
  exact List.length_filter_le ..

/-- The arguments in their files. -/
def filed (kinds : List ArgumentKind) (args : List UInt64) : Arguments :=
  ⟨ofFile (kinds.zip args) false, ofFile (kinds.zip args) true⟩

/-- Of the registers that hold arguments, each in its file, what belongs to the arguments is
    passed. -/
theorem passed_eq_filed (slots : Slots) {gpr fpr : List UInt64} {r : ResultKind}
    (words : ofFile slots false <+: gpr) (floats : ofFile slots true <+: fpr) :
    passed ⟨slots.map (·.1), r⟩ gpr fpr =
      filed (slots.map (·.1)) (slots.map fun s => s.1.narrow s.2) := by
  induction slots generalizing gpr fpr with
  | nil => rfl
  | cons s slots ih =>
    obtain ⟨k, n⟩ := s
    rw [ofFile_cons] at words floats
    cases floating : k.isFloating with
    | true =>
      simp only [floating, Bool.true_eq_false, ↓reduceIte] at words floats
      obtain ⟨fs, rfl⟩ := floats
      have rest := ih words (List.prefix_append (ofFile slots true) fs)
      simp only [passed, filed, List.map_cons, List.zip_cons_cons, ofFile_cons, List.filter_cons,
        floating, Bool.not_true, Bool.true_eq_false, Bool.false_eq_true, ↓reduceIte,
        List.cons_append, List.zipWith_cons_cons, mk.injEq, List.cons.injEq] at rest ⊢
      exact ⟨rest.1, by cases k <;> rfl, rest.2⟩
    | false =>
      simp only [floating, Bool.false_eq_true, ↓reduceIte] at words floats
      obtain ⟨gs, rfl⟩ := words
      have rest := ih (List.prefix_append (ofFile slots false) gs) floats
      simp only [passed, filed, List.map_cons, List.zip_cons_cons, ofFile_cons, List.filter_cons,
        floating, Bool.not_false, Bool.false_eq_true, ↓reduceIte, List.cons_append,
        List.zipWith_cons_cons, mk.injEq, List.cons.injEq] at rest ⊢
      exact ⟨⟨by cases k <;> rfl, rest.1⟩, rest.2⟩

end Arguments
end TemplateVm.Native
