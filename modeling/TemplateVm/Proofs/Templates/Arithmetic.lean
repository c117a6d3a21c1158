import TemplateVm.Proofs.Templates.Constants

set_option autoImplicit false
set_option synthInstance.maxSize 100000

/-!
# Templates for operands and arithmetic

Ints are computed in 64 bits and narrowed with their sign; the second operand is held.
-/
namespace TemplateVm

open Memory (Guarded load)
open Guest Emit Template

variable {P : Vm → Prop} {turns : Nat} {v : Vm} {q q' : UInt64} {c : Cpu} {m m' : Guarded}
  {a : Activation} {b : Program} {s : Settings} {bcp p : UInt64} {x x' : Contents}
  {place : CodeLabel → UInt64} {ctx : CodeContext} {inStub : Bool} {K S : List CodeLabel}
  {w : Value} {rest : List Value} {tos : TopOfStack}

/-- A held int is zero if its register is. -/
theorem int_eq_zero (k : Int32) : k.toInt64.toUInt64 = 0 ↔ k = 0 := by
  constructor
  · intro h
    have low := toUInt32_toInt64 k
    rw [h] at low
    exact Int32.toBitVec_inj.mp (UInt32.toBitVec_inj.mpr low.symm)
  · rintro rfl
    rfl

/-- A word that is copied means the same. -/
theorem Value.copied_in_put {k : UInt64} {n : Nat} (ok : m.Open k 8) (h : w.In m n)
    (single : w.words = 1) : w.In (m.put k 8 (load m.bytes n 8)) k.toNat := by
  have low : load (m.put k 8 (load m.bytes n 8)).bytes k.toNat 4 = load m.bytes n 4 := by
    rw [Memory.load_word_of_double, Guarded.load_put ok, ← Memory.load_word_of_double]
  cases w with
  | int k => exact low.trans h
  | float bits => exact low.trans h
  | object r => exact (Guarded.load_put ok).trans h
  | long k => cases single
  | double bits => cases single
  | _ => exact h.elim

/-- The deeper one of two ints is popped into `x1`; the other one is held. -/
theorem Represents.runPopInt {k k' : Int32} (h : Represents a b .int bcp x v c m)
    (hx : x.stack = .int k' :: .int k :: rest)
    (lay : Lays ⟨v.image.code, place⟩ ctx inStub K S (popInt .x1) q q' ())
    (next : ∀ p c', Stands a b bcp p { x with stack := rest } v c' m →
      c'.reg .x0 = k'.toInt64.toUInt64 → c'.reg .x1 = k.toInt64.toUInt64 →
      Vm.Arrives P turns (v.moved q' c' m)) : Vm.Arrives P (turns + 1) (v.moved q c m) := by
  obtain ⟨p, held, h⟩ := h.held (by decide) hx
  obtain ⟨i, rfl⟩ := Lays.emit (i := .load .x1 (.post .operands 8) .word true) lay
  refine h.runLoadInt rfl i rfl fun popped => next _ _ popped ?_ ?_
  · rw [Cpu.reg_setReg_ne _ _ (by decide), Cpu.reg_setReg_ne _ _ (by decide)]
    exact held
  · exact Cpu.reg_setReg_self _ _ (by decide)

namespace Implements

theorem pop (hx : x.pop = some x') :
    Implements a b s bcp 1 .none .none (add .operands .operands 8) x x' := by
  intro P turns v c m place ctx inStub K S q q' _ lay h next
  obtain ⟨p, h⟩ := h.stands
  unfold Contents.pop at hx
  split at hx
  case h_2 => cases hx
  next w rest stack =>
  obtain ⟨single, ⟨⟩⟩ := Option.ite_none_right_eq_some.mp hx
  obtain ⟨i, rfl⟩ := lay.emit
  obtain ⟨-, -, popped⟩ := h.loaded_top stack 8 (by rw [single]; rfl)
  refine .binary i (next v _ m (.refl v m) (.of_stands (p := p + 8) ?_))
  rw [h.registers.operands]
  exact popped

/-- The word is copied; what it means is copied with it. -/
theorem dup (hx : x.dup = some x') (room : depth x'.stack ≤ b.maxStack) :
    Implements a b s bcp 2 .none .none (do
      ldr .x0 (Register.at .operands)
      pushWord .x0) x x' := by
  intro P turns v c m place ctx inStub K S q q' _ lay h next
  obtain ⟨p, h⟩ := h.stands
  unfold Contents.dup at hx
  split at hx
  case h_2 => cases hx
  next w rest stack =>
  obtain ⟨single, ⟨⟩⟩ := Option.ite_none_right_eq_some.mp hx
  obtain ⟨i₁, lay⟩ := lay.emit_bind
  obtain ⟨i₂, rfl⟩ := Lays.emit (i := .store .x0 (.pre .operands (-8)) .double) lay
  obtain ⟨ok, holds, -⟩ := h.loaded_top stack 8 (by rw [single]; rfl)
  have top : p + 0 = p := UInt64.add_zero p
  refine .loadAt h.registers.operands i₁ (congrArg _ top) (top.symm ▸ ok 8 (by decide)) rfl ?_
  refine (h.setReg .x0 _ rfl).runStore i₂ (w := w) (by rw [single]; rfl) (by decide)
    (fun k ok => ?_) ?_ fun m' h' changed => next v _ m' (h.continues changed h.fits.low) ?_
  · rw [Cpu.reg_setReg_self _ _ (by decide)]
    exact Value.copied_in_put ok holds single
  · simp only [depth, List.map_cons, List.sum_cons, stack] at room ⊢
    omega
  · rw [Contents.push, stack] at h'
    exact .of_stands h'

theorem intOperation {i : Instruction Target} [Orderly.Absent i.target?]
    {g : UInt64 → UInt64 → UInt64} {f : Int32 → Int32 → Int32}
    (runs : ∀ {P : Vm → Prop} {turns : Nat} {v : Vm} {q : UInt64} {c : Cpu} {m : Guarded}
      {place : CodeLabel → UInt64}, v.image.code.Fetches q (i.placed place) →
      Vm.Arrives P turns (v.moved (q + 4) (c.setReg .x0 (g (c.reg .x1) (c.reg .x0))) m) →
      Vm.Arrives P (turns + 1) (v.moved q c m))
    (same : ∀ k k' : Int32, Extension.signWord.apply (g k.toInt64.toUInt64 k'.toInt64.toUInt64) =
      (f k k').toInt64.toUInt64)
    (hx : x.onInts f = some x') (room : depth x'.stack ≤ b.maxStack) :
    Implements a b s bcp 3 .int .int (Template.intOperation (emit i)) x x' := by
  intro P turns v c m place ctx inStub K S q q' _ lay h next
  unfold Contents.onInts at hx
  split at hx
  case h_2 => cases hx
  next k' k rest stack =>
  cases hx
  unfold Template.intOperation at lay
  obtain ⟨⟨⟩, r, lay₁, lay₂⟩ := lay.split
  obtain ⟨i₁, lay₂⟩ := lay₂.emit_bind
  obtain ⟨i₂, rfl⟩ := lay₂.emit
  refine h.runPopInt stack lay₁ fun p c' h x0 x1 => runs i₁ (.extend i₂ (next v _ m (.refl v m) ?_))
  rw [Cpu.reg_setReg_self _ _ (by decide), x0, x1, same]
  exact .hold ((h.setReg .x0 _ rfl).setReg .x0 _ rfl) (Cpu.reg_setReg_self _ _ (by decide)) room

theorem divide {e : ExceptionEntries} (hx : x.divide = some x')
    (room : depth x'.stack ≤ b.maxStack) :
    Implements a b s bcp 4 .int .int (Template.divide e) x x' := by
  intro P turns v c m place ctx inStub K S q q' _ lay h next
  unfold Contents.divide at hx
  split at hx
  case h_2 => cases hx
  next k' k rest stack =>
  obtain ⟨nonzero, ⟨⟩⟩ := Option.ite_none_left_eq_some.mp hx
  unfold Template.divide at lay
  obtain ⟨ok, lay⟩ := lay.newLabel_bind
  obtain ⟨⟨⟩, r, lay₁, lay⟩ := lay.split
  obtain ⟨i₁, lay⟩ := lay.emitTo_bind
  obtain ⟨-, lay⟩ := lay.emit_bind
  obtain ⟨here, lay⟩ := lay.bind_bind
  obtain ⟨i₂, lay⟩ := lay.emit_bind
  obtain ⟨i₃, rfl⟩ := lay.emit
  rw [here] at i₁
  refine h.runPopInt stack lay₁ fun p c' h x0 x1 => .branchNonzero i₁ (fun _ => ?_) fun zero => ?_
  · refine .div i₂ (.extend i₃ (next v _ m (.refl v m) ?_))
    rw [Cpu.reg_setReg_self _ _ (by decide), x0, x1, signWord_div]
    exact .hold ((h.setReg .x0 _ rfl).setReg .x0 _ rfl) (Cpu.reg_setReg_self _ _ (by decide)) room
  · rw [x0] at zero
    exact absurd ((int_eq_zero k').mp zero) nonzero

theorem negate (hx : x.onInt (fun k => .int (-k)) = some x')
    (room : depth x'.stack ≤ b.maxStack) :
    Implements a b s bcp 2 .int .int (do
      neg .x0 .x0
      sxtw .x0 .x0) x x' := by
  intro P turns v c m place ctx inStub K S q q' _ lay h next
  unfold Contents.onInt at hx
  split at hx
  case h_2 => cases hx
  next k rest stack =>
  cases hx
  obtain ⟨i₁, lay⟩ := lay.emit_bind
  obtain ⟨i₂, rfl⟩ := lay.emit
  obtain ⟨p, held, h⟩ := h.held (by decide) stack
  refine .neg i₁ (.extend i₂ (next v _ m (.refl v m) ?_))
  rw [Cpu.reg_setReg_self _ _ (by decide), show c.reg .x0 = _ from held, signWord_neg]
  exact .hold ((h.setReg .x0 _ rfl).setReg .x0 _ rfl) (Cpu.reg_setReg_self _ _ (by decide)) room

theorem intToLong (hx : x.onInt (fun k => .long k.toInt64) = some x')
    (room : depth x'.stack ≤ b.maxStack) :
    Implements a b s bcp 1 .int .long (sxtw .x0 .x0) x x' := by
  intro P turns v c m place ctx inStub K S q q' _ lay h next
  unfold Contents.onInt at hx
  split at hx
  case h_2 => cases hx
  next k rest stack =>
  cases hx
  obtain ⟨i, rfl⟩ := lay.emit
  obtain ⟨p, held, h⟩ := h.held (by decide) stack
  refine .extend i (next v _ m (.refl v m) ?_)
  rw [show c.reg .x0 = _ from held, signWord_self]
  exact .hold (h.setReg .x0 _ rfl) (Cpu.reg_setReg_self _ _ (by decide)) room

theorem addLongs (hx : x.addLongs = some x') (room : depth x'.stack ≤ b.maxStack) :
    Implements a b s bcp 2 .long .long (do
      popLong .x1
      add .x0 .x1 (.reg .x0)) x x' := by
  intro P turns v c m place ctx inStub K S q q' _ lay h next
  unfold Contents.addLongs at hx
  split at hx
  case h_2 => cases hx
  next k' k rest stack =>
  cases hx
  obtain ⟨⟨⟩, r, lay₁, lay₂⟩ := lay.split
  obtain ⟨i₁, rfl⟩ := Lays.emit (i := .load .x1 (.post .operands 16) .double false) lay₁
  obtain ⟨i₂, rfl⟩ := lay₂.emit
  obtain ⟨p, held, h⟩ := h.held (by decide) stack
  refine h.runLoad rfl i₁ rfl (by decide) rfl fun popped holds => .binary i₂ (next v _ m (.refl v m) ?_)
  refine .hold (popped.setReg .x0 _ rfl) ((Cpu.reg_setReg_self _ _ (by decide)).trans ?_) room
  change Cpu.reg _ .x1 + Cpu.reg _ .x0 = _
  rw [Cpu.reg_setReg_self _ _ (by decide), Cpu.reg_setReg_ne _ _ (by decide),
    Cpu.reg_setReg_ne _ _ (by decide), show c.reg .x0 = _ from held,
    show load m.bytes p.toNat 8 = _ from holds, Int64.toUInt64_add]

theorem addFloats (hx : x.addFloats = some x') (room : depth x'.stack ≤ b.maxStack) :
    Implements a b s bcp 2 .float .float (do
      popFloat .v1
      emit (.floatBinary .add .single .v0 .v1 .v0)) x x' := by
  intro P turns v c m place ctx inStub K S q q' _ lay h next
  unfold Contents.addFloats at hx
  split at hx
  case h_2 => cases hx
  next k' k rest stack =>
  cases hx
  obtain ⟨⟨⟩, r, lay₁, lay₂⟩ := lay.split
  obtain ⟨i₁, rfl⟩ := Lays.emit (i := .loadFloat .v1 (.post .operands 8) .single) lay₁
  obtain ⟨i₂, rfl⟩ := lay₂.emit
  obtain ⟨p, held, h⟩ := h.held (by decide) stack
  refine h.runLoadFloat rfl i₁ rfl (by decide) fun popped holds =>
    .floatBinary i₂ (next v _ m (.refl v m) ?_)
  refine .hold (popped.setFloat .v0 _) ?_ room
  change UInt64.toUInt32 (Cpu.float _ .v0) = _
  rw [Cpu.float_setFloat, if_pos rfl, Cpu.float_setFloat, if_pos rfl, Cpu.float_setFloat,
    if_neg (by decide), Cpu.float_setReg]
  have low : (c.float .v0).toUInt32 = k' := held
  have deep : (load m.bytes p.toNat Precision.single.bytes.toNat).toUInt32 = k := holds.float
  simp [FloatBinary.apply, low, deep]

theorem addDoubles (hx : x.addDoubles = some x') (room : depth x'.stack ≤ b.maxStack) :
    Implements a b s bcp 2 .double .double (do
      popDouble .v1
      emit (.floatBinary .add .double .v0 .v1 .v0)) x x' := by
  intro P turns v c m place ctx inStub K S q q' _ lay h next
  unfold Contents.addDoubles at hx
  split at hx
  case h_2 => cases hx
  next k' k rest stack =>
  cases hx
  obtain ⟨⟨⟩, r, lay₁, lay₂⟩ := lay.split
  obtain ⟨i₁, rfl⟩ := Lays.emit (i := .loadFloat .v1 (.post .operands 16) .double) lay₁
  obtain ⟨i₂, rfl⟩ := lay₂.emit
  obtain ⟨p, held, h⟩ := h.held (by decide) stack
  refine h.runLoadFloat rfl i₁ rfl (by decide) fun popped holds =>
    .floatBinary i₂ (next v _ m (.refl v m) ?_)
  refine .hold (popped.setFloat .v0 _) ?_ room
  change Cpu.float _ .v0 = _
  rw [Cpu.float_setFloat, if_pos rfl, Cpu.float_setFloat, if_pos rfl, Cpu.float_setFloat,
    if_neg (by decide), Cpu.float_setReg, show c.float .v0 = _ from held,
    show load m.bytes p.toNat Precision.double.bytes.toNat = _ from holds]
  rfl

end Implements
end TemplateVm
