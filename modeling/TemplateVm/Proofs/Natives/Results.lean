import TemplateVm.Proofs.Activation.Fields
import TemplateVm.Proofs.Natives.Handlers

set_option autoImplicit false
set_option synthInstance.maxSize 100000

/-!
# Results that travel as ints

Booleans, bytes, chars and shorts travel as ints. The handler for results of a native method makes
the int from whatever the function left in the register, and it is the value that the host reads
from the same register. A body of bytecodes leaves an int of its own, which no instruction narrows:
it is the value that the host reads exactly if it is in the range of the type.
-/
namespace TemplateVm

open Memory (Guarded)
open Emit

/-! ## Values of narrow types -/

theorem toInt_of_small {n : UInt32} (small : n.toNat < 2 ^ 31) : n.toInt32.toInt = n.toNat := by
  change n.toBitVec.toInt = n.toBitVec.toNat
  exact BitVec.toInt_eq_toNat_of_lt (by change 2 * n.toNat < _; omega)

theorem toNat_toUInt32 {n : Int32} (nonneg : 0 ≤ n.toInt) : (n.toUInt32.toNat : Int) = n.toInt := by
  have bound := n.toBitVec.isLt
  change 0 ≤ n.toBitVec.toInt at nonneg
  change (n.toBitVec.toNat : Int) = n.toBitVec.toInt
  rw [BitVec.toInt_eq_toNat_cond] at nonneg ⊢
  split <;> omega

theorem char_small (unit : UInt16) : unit.toUInt32.toNat < 2 ^ 31 := by
  have := unit.toNat_lt
  rw [UInt16.toNat_toUInt32]
  omega

namespace TypeTag

/-- Values of the type are delivered as ints. -/
def TravelsAsInt (t : TypeTag) : Prop := (TopOfStack.ofType t).ofResult = .int

instance (t : TypeTag) : Decidable t.TravelsAsInt := inferInstanceAs (Decidable (_ = _))

/-- The least int of the type, and the first one above. -/
def bounds : TypeTag → Int × Int
  | .boolean => (0, 2)
  | .byte => (-0x80, 0x80)
  | .char => (0, 0x10000)
  | .short => (-0x8000, 0x8000)
  | _ => (-0x80000000, 0x80000000)

/-- The int is one of the type. -/
def Holds (t : TypeTag) (n : Int32) : Prop := t.bounds.1 ≤ n.toInt ∧ n.toInt < t.bounds.2

instance (t : TypeTag) (n : Int32) : Decidable (t.Holds n) := inferInstanceAs (Decidable (_ ∧ _))

end TypeTag

namespace Value

variable {t : TypeTag} {n : Int32} {x0 v0 : UInt64}

/-- The int as which a value travels. -/
def travelled : Value → Int32
  | boolean b => if b then 1 else 0
  | byte n => n.toInt32
  | char unit => unit.toUInt32.toInt32
  | short n => n.toInt32
  | int n => n
  | _ => 0

theorem stackWords_ofRegisters (travels : t.TravelsAsInt) :
    (ofRegisters t x0 v0).stackWords = [(ofRegisters t x0 v0).travelled.toInt64.toUInt64] := by
  cases t with
  | boolean =>
    rw [ofRegisters]
    cases x0 &&& 0xff != 0 <;> rfl
  | char =>
    rw [ofRegisters, stackWords, travelled, toInt64_of_small _ (char_small _),
      UInt16.toUInt64_toUInt32]
  | byte | short => simp [ofRegisters, stackWords, travelled]
  | int => rfl
  | float | double | long | object | array | void => exact absurd travels (by decide)

/-- What the host reads is a value of the type. -/
theorem holds_ofRegisters (travels : t.TravelsAsInt) :
    t.Holds (ofRegisters t x0 v0).travelled := by
  unfold TypeTag.Holds ofRegisters
  cases t with
  | boolean =>
    dsimp only
    cases x0 &&& 0xff != 0 <;> decide
  | char =>
    have bound := x0.toUInt16.toNat_lt
    simp only [travelled, TypeTag.bounds, toInt_of_small (char_small _), UInt16.toNat_toUInt32]
    omega
  | byte =>
    simp only [travelled, Int8.toInt_toInt32]
    exact ⟨Int8.le_toInt _, Int8.toInt_lt _⟩
  | short =>
    simp only [travelled, Int16.toInt_toInt32]
    exact ⟨Int16.le_toInt _, Int16.toInt_lt _⟩
  | int => exact ⟨Int32.le_toInt _, Int32.toInt_lt _⟩
  | float | double | long | object | array | void => exact absurd travels (by decide)

/-- What the host reads from an int that is left in the register is this int, if it is one of the
    type. -/
theorem travelled_ofRegisters (travels : t.TravelsAsInt) (h : t.Holds n) :
    (ofRegisters t n.toInt64.toUInt64 v0).travelled = n := by
  obtain ⟨low, high⟩ := h
  unfold ofRegisters travelled
  cases t with
  | boolean =>
    change 0 ≤ n.toInt at low
    change n.toInt < 2 at high
    obtain zero | one : n.toInt = 0 ∨ n.toInt = 1 := by omega
    · obtain rfl : n = 0 := Int32.toInt_inj.mp zero
      rfl
    · obtain rfl : n = 1 := Int32.toInt_inj.mp one
      rfl
  | char =>
    change 0 ≤ n.toInt at low
    change n.toInt < 0x10000 at high
    have unsigned : (n.toUInt32.toNat : Int) = n.toInt := toNat_toUInt32 low
    have same : n.toUInt32.toUInt16.toUInt32 = n.toUInt32 := by
      refine UInt32.toNat_inj.mp ?_
      rw [UInt16.toNat_toUInt32, UInt32.toNat_toUInt16]
      omega
    simp only [toUInt16_toInt64, same, Int32.toInt32_toUInt32]
  | byte =>
    simp only [toUInt8_toInt64, ← toUInt8_toInt8, Int8.toInt8_toUInt8]
    refine Int32.toInt_inj.mp ?_
    rw [Int8.toInt_toInt32, Int32.toInt_toInt8]
    exact Int.bmod_eq_of_le low high
  | short =>
    simp only [toUInt16_toInt64, ← toUInt16_toInt16, Int16.toInt16_toUInt16]
    refine Int32.toInt_inj.mp ?_
    rw [Int16.toInt_toInt32, Int32.toInt_toInt16]
    exact Int.bmod_eq_of_le low high
  | int => simp only [toUInt32_toInt64, Int32.toInt32_toUInt32]
  | float | double | long | object | array | void => exact absurd travels (by decide)

/-- The ints that mean the same to the host and to a caller in the machine are those of the
    type. -/
theorem travelled_eq_iff (travels : t.TravelsAsInt) :
    (ofRegisters t n.toInt64.toUInt64 v0).travelled = n ↔ t.Holds n :=
  ⟨fun same => same ▸ holds_ofRegisters travels, travelled_ofRegisters travels⟩

/-- The host takes the int three hundred for the byte forty-four. -/
example : (ofRegisters .byte (300 : Int32).toInt64.toUInt64 0).travelled = 44 := by decide

/-- The host reads from the int what it reads from the register that the int was made from. -/
theorem ofRegisters_travelled (travels : t.TravelsAsInt) (v0' : UInt64) :
    ofRegisters t (ofRegisters t x0 v0).travelled.toInt64.toUInt64 v0' = ofRegisters t x0 v0 := by
  unfold ofRegisters
  cases t with
  | boolean =>
    dsimp only
    cases x0 &&& 0xff != 0 <;> decide
  | char =>
    simp only [travelled, toUInt16_toInt64, UInt32.toUInt32_toInt32, UInt16.toUInt16_toUInt32]
  | byte =>
    simp only [travelled, toUInt8_toInt64, ← toUInt8_toInt8, Int8.toInt8_toUInt8,
      Int8.toInt8_toInt32]
  | short =>
    simp only [travelled, toUInt16_toInt64, ← toUInt16_toInt16, Int16.toInt16_toUInt16,
      Int16.toInt16_toInt32]
  | int => simp only [travelled, toUInt32_toInt64, Int32.toInt32_toUInt32]
  | float | double | long | object | array | void => exact absurd travels (by decide)

end Value

/-! ## The handlers -/

section
variable {P : Vm → Prop} {turns : Nat} {v : Vm} {q q' entry : UInt64} {c : Cpu} {m : Guarded}
  {place : CodeLabel → UInt64} {ctx : CodeContext} {inStub : Bool} {K S : List CodeLabel}
  {t : TypeTag}

theorem runExtendedResult {k : Extension}
    (lay : Lays ⟨v.image.code, place⟩ ctx inStub K S (do
      let entry ← pc
      extend k .x0 .x0
      ret .link
      pure entry) q q' entry)
    (next : Vm.Arrives P turns (v.moved (c.reg .link) (c.setReg .x0 (k.apply (c.reg .x0))) m)) :
    Vm.Arrives P (turns + 2) (v.moved entry c m) := by
  replace lay := lay.pc_bind
  obtain ⟨i₁, lay⟩ := lay.emit_bind
  obtain ⟨i₂, lay⟩ := lay.emit_bind
  obtain ⟨-, rfl⟩ := lay.ended
  refine .extend i₁ (.ret i₂ ?_)
  rw [Cpu.reg_setReg_ne _ _ (by decide)]
  exact next

theorem runBooleanResult
    (lay : Lays ⟨v.image.code, place⟩ ctx inStub K S (resultHandler .boolean) q q' entry)
    (next : ∀ f n, Vm.Arrives P turns (v.moved (c.reg .link)
      ((((c.setReg .x0 (c.reg .x0 &&& 0xff)).setFlags f).setReg .scratch1 n).setReg .x0
        (c.reg .x0 &&& 0xff != 0).toUInt64) m)) :
    Vm.Arrives P (turns + 5) (v.moved entry c m) := by
  unfold resultHandler at lay
  dsimp only at lay
  replace lay := lay.pc_bind
  obtain ⟨i₁, lay⟩ := lay.emit_bind
  obtain ⟨i₂, lay⟩ := lay.emit_bind
  obtain ⟨i₃, lay⟩ := lay.emit_bind
  obtain ⟨i₄, lay⟩ := lay.emit_bind
  obtain ⟨i₅, lay⟩ := lay.emit_bind
  obtain ⟨-, rfl⟩ := lay.ended
  have chosen : (if Condition.ne.holds (.ofCompare (c.reg .x0 &&& 0xff) 0) then 1 else 0) =
      (c.reg .x0 &&& 0xff != 0).toUInt64 := by
    rw [Condition.holds_ne]
    cases c.reg .x0 &&& 0xff != 0 <;> rfl
  refine .binary i₁ (.compare i₂ (.movImm i₃ (.select i₄ (.ret i₅ ?_))))
  rw [Cpu.flags_setReg, Cpu.flags_setFlags, Cpu.reg_setReg_self _ _ (by decide),
    Cpu.reg_setReg_self _ _ (by decide), Cpu.reg_zero, Cpu.reg_setReg_ne _ _ (by decide),
    Cpu.reg_setReg_ne _ _ (by decide), Cpu.reg_setFlags, Cpu.reg_setReg_ne _ _ (by decide)]
  have left := next (.ofCompare (c.reg .x0 &&& 0xff) 0) 1
  rw [← chosen] at left
  exact left

/-- The handler makes the value that the host would read into an int. Nothing else is lost but a
    scratch register. -/
theorem runResultHandler (travels : t.TravelsAsInt)
    (lay : Lays ⟨v.image.code, place⟩ ctx inStub K S (resultHandler t) q q' entry)
    (next : ∀ c', c'.reg .x0 =
        (Value.ofRegisters t (c.reg .x0) (c.float .v0)).travelled.toInt64.toUInt64 →
      (∀ r, r ≠ .x0 → r ≠ .scratch1 → c'.reg r = c.reg r) → (∀ f, c'.float f = c.float f) →
      Vm.Arrives P turns (v.moved (c.reg .link) c' m)) :
    Vm.Arrives P (turns + 5) (v.moved entry c m) := by
  have words : (Value.ofRegisters t (c.reg .x0) (c.float .v0)).stackWords =
      [(Value.ofRegisters t (c.reg .x0) (c.float .v0)).travelled.toInt64.toUInt64] :=
    Value.stackWords_ofRegisters travels
  have finish (n : UInt64)
      (word : (Value.ofRegisters t (c.reg .x0) (c.float .v0)).stackWords = [n]) :
      Vm.Arrives P turns (v.moved (c.reg .link) (c.setReg .x0 n) m) := by
    rw [words, List.singleton_inj] at word
    exact next _ ((Cpu.reg_setReg_self _ _ (by decide)).trans word.symm)
      (fun r h₁ _ => Cpu.reg_setReg_ne _ _ h₁) fun f => Cpu.float_setReg ..
  cases t with
  | boolean =>
    refine runBooleanResult lay fun f n => next _ ?_ (fun r h₁ h₂ => ?_) fun f => ?_
    · rw [← List.singleton_inj.mp words]
      exact Cpu.reg_setReg_self _ _ (by decide)
    · rw [Cpu.reg_setReg_ne _ _ h₁, Cpu.reg_setReg_ne _ _ h₂, Cpu.reg_setFlags,
        Cpu.reg_setReg_ne _ _ h₁]
    · simp
  | char => exact (runExtendedResult lay (finish _ rfl)).le (by omega)
  | byte => exact (runExtendedResult lay (finish _ rfl)).le (by omega)
  | short => exact (runExtendedResult lay (finish _ rfl)).le (by omega)
  | int => exact (runExtendedResult lay (finish _ rfl)).le (by omega)
  | float | double | long | object | array | void => exact absurd travels (by decide)

end

namespace Image

variable {s : Settings} {i i' : Image} {d : MethodDescriptor} {isStatic : Bool} {handler : UInt64}

/-- The handler for the results of each type is where the code for it is placed. -/
structure Finishes (i : Image) : Prop where
  code : ∀ t ∈ TypeTag.resultHandlers, ∃ place ctx K S p q,
    Lays ⟨i.code, place⟩ ctx true K S (Emit.resultHandler t) p q (i.resultHandler t)

theorem finishes_of_generate (h : generate s = .ok i) (pages : s.shadowPages.toNat < 2 ^ 54) :
    i.Finishes where
  code t ht := by
    obtain ⟨parts, laid⟩ := laid_of_generate h pages
    obtain ⟨place, l, lay⟩ := laid.interpreter
    obtain ⟨p, q, results⟩ := (placed_of_lays lay).results
    unfold Emit.resultHandlers at results
    obtain ⟨handlers, r, each, ended⟩ := results.stub_bind
    obtain ⟨-, same⟩ := ended.ended
    have listed : TypeTag.resultHandlers[t.resultHandlerIndex]? = some t := by
      revert ht
      cases t <;> decide
    obtain ⟨entry, r, r', found, code⟩ := each.mapM.2 _ t listed
    refine ⟨place, context s i.stubs l, [l], [l], r, r', ?_⟩
    rw [resultHandler, laid.resultHandlers, same, List.getD_eq_getElem?_getD, found]
    exact code

theorem resultHandlers_of_signatureHandler
    (run : i.signatureHandler d isStatic = .ok (handler, i')) :
    i'.resultHandlers = i.resultHandlers := by
  unfold signatureHandler at run
  obtain ⟨signature, -, run⟩ := ok_of_bind run
  split at run
  · cases run
    rfl
  · dsimp only at run
    split at run
    · next added =>
      cases run
      obtain ⟨blob, -, added⟩ := ok_of_bind added
      obtain ⟨code, -, added⟩ := ok_of_bind added
      cases added
      rfl
    · cases run

/-- They stay where they are when a signature handler is added. -/
theorem Finishes.of_signatureHandler (h : i.Finishes) (extended : Extended s i)
    (run : i.signatureHandler d isStatic = .ok (handler, i')) : i'.Finishes where
  code t ht := by
    obtain ⟨signature, -, supplied⟩ := extended.of_signatureHandler run
    obtain ⟨place, ctx, K, S, p, q, code⟩ := h.code t ht
    refine ⟨place, ctx, K, S, p, q, ?_⟩
    rw [resultHandler, resultHandlers_of_signatureHandler run]
    exact code.mono rfl supplied.grows.fetches

end Image

section
variable {v : Vm} {c : Cpu} {m : Guarded} {t : TypeTag}

/-- What a caller of a native method finds is an int of the type, the one that stands for the value
    that the host reads, whether from the register that the function left or after its handler. -/
theorem Image.Finishes.narrows (h : v.image.Finishes) (travels : t.TravelsAsInt) :
    Vm.Arrives (fun w => ∃ c' n, w = v.moved (c.reg .link) c' m ∧ t.Holds n ∧
      c'.reg .x0 = n.toInt64.toUInt64 ∧
      (Value.ofRegisters t (c.reg .x0) (c.float .v0)).travelled = n ∧
      Value.ofRegisters t (c'.reg .x0) (c'.float .v0) =
        Value.ofRegisters t (c.reg .x0) (c.float .v0))
      5 (v.moved (v.image.resultHandler t) c m) := by
  have listed : t ∈ TypeTag.resultHandlers := by
    revert travels
    cases t <;> decide
  obtain ⟨place, ctx, K, S, p, q, lay⟩ := h.code t listed
  refine runResultHandler travels lay fun c' narrowed _ _ => .here ⟨c', _, rfl,
    Value.holds_ofRegisters travels, narrowed, rfl, ?_⟩
  rw [narrowed, Value.ofRegisters_travelled travels]

end
end TemplateVm
