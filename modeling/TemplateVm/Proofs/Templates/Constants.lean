import TemplateVm.Proofs.Activation.Entry
import TemplateVm.Proofs.Activation.Fetch

set_option autoImplicit false
set_option synthInstance.maxSize 100000

/-!
# What templates do

`Implements` says that code changes the contents of an activation from one to another. Constants are
pushed.
-/
namespace TemplateVm

open Memory (Guarded load)
open Bytecode (Operation)
open Guest Emit Template

/-- Wherever the code is placed, it takes the machine from one contents to the other within so many
    turns, if it begins and ends with the topmost operand in these states, and the marker gets to
    know of the references in fields that are overwritten. -/
def Overwrites (a : Activation) (b : Program) (s : Settings) (bcp : UInt64) (within : Nat)
    (old : Option (List UInt64)) (tosIn tosOut : TopOfStack) (code : Emit Unit) (x x' : Contents) :
    Prop :=
  ∀ (P : Vm → Prop) (turns : Nat) (v : Vm) (c : Cpu) (m : Guarded) (place : CodeLabel → UInt64)
    (ctx : CodeContext) (inStub : Bool) (K S : List CodeLabel) (q q' : UInt64),
    ctx.settings = s → Lays ⟨v.image.code, place⟩ ctx inStub K S code q q' () →
    Represents a b tosIn bcp x v c m →
    (∀ v' c' m', v.Continues s old [] m v' m' → Represents a b tosOut bcp x' v' c' m' →
      Vm.Arrives P turns (v'.moved q' c' m')) →
    Vm.Arrives P (turns + within) (v.moved q c m)

/-- The code of all other bytecodes overwrites no field that has a reference. -/
def Implements (a : Activation) (b : Program) (s : Settings) (bcp : UInt64) (within : Nat)
    (tosIn tosOut : TopOfStack) (code : Emit Unit) (x x' : Contents) : Prop :=
  Overwrites a b s bcp within (some []) tosIn tosOut code x x'

variable {a : Activation} {b : Program} {s : Settings} {bcp p : UInt64} {x x' : Contents} {v : Vm}
  {c : Cpu} {m : Guarded} {tos : TopOfStack} {w : Value} {rest : List Value} {op : Operation}

theorem Overwrites.le {n k : Nat} {old : Option (List UInt64)} {tosIn tosOut : TopOfStack}
    {code : Emit Unit} (h : Overwrites a b s bcp n old tosIn tosOut code x x') (le : n ≤ k) :
    Overwrites a b s bcp k old tosIn tosOut code x x' :=
  fun P turns v c m place ctx inStub K S q q' settings lay represents next =>
    (h P turns v c m place ctx inStub K S q q' settings lay represents next).le
      (Nat.add_le_add_left le turns)

/-- The topmost operand is held. -/
theorem Represents.hold (h : Stands a b bcp p { x with stack := rest } v c m) (held : w.Held c tos)
    (room : depth (w :: rest) ≤ b.maxStack) :
    Represents a b tos bcp { x with stack := w :: rest } v c m :=
  ⟨room, rest, p, .of_held rfl held, h⟩

/-- The operand that is held, and the rest in memory. -/
theorem Represents.held (h : Represents a b tos bcp x v c m) (taken : tos ≠ .none)
    (hx : x.stack = w :: rest) :
    ∃ p, w.Held c tos ∧ Stands a b bcp p { x with stack := rest } v c m := by
  obtain ⟨-, rest', p, unheld, h⟩ := h
  unfold Unheld at unheld
  split at unheld
  · exact absurd rfl taken
  · obtain ⟨w', same, held⟩ := unheld
    obtain ⟨rfl, rfl⟩ := List.cons.inj (hx.symm.trans same)
    exact ⟨p, held, h⟩

/-- The value is in the register of its state, which is not fixed for another use. -/
theorem Value.held_setReg (c : Cpu) {n : UInt64} (hn : ∀ c' : Cpu, c'.reg .x0 = n → w.Held c' tos) :
    w.Held (c.setReg .x0 n) tos := hn _ (Cpu.reg_setReg_self _ _ (by decide))

namespace Implements

theorem nop : Implements a b s bcp 0 .none .none (pure ()) x x := by
  intro P turns v c m place ctx inStub K S q q' _ lay h next
  obtain ⟨rfl, -⟩ := lay.ended
  exact next v c m (.refl v m) h

section
variable (room : depth (w :: x.stack) ≤ b.maxStack)
include room

theorem movImm {n : UInt64} (hn : ∀ c' : Cpu, c'.reg .x0 = n → w.Held c' tos) :
    Implements a b s bcp 1 .none tos (movImm .x0 n) x (x.push w) := by
  intro P turns v c m place ctx inStub K S q q' _ lay h next
  obtain ⟨p, h⟩ := h.stands
  obtain ⟨i, rfl⟩ := lay.emit
  refine .movImm i (next v _ m (.refl v m) ?_)
  exact .hold (h.setReg .x0 n rfl) (Value.held_setReg c hn) room

theorem movZero (hn : ∀ c' : Cpu, c'.reg .x0 = 0 → w.Held c' tos) :
    Implements a b s bcp 1 .none tos (mov .x0 .zero) x (x.push w) := by
  intro P turns v c m place ctx inStub K S q q' _ lay h next
  obtain ⟨p, h⟩ := h.stands
  obtain ⟨i, rfl⟩ := lay.emit
  refine .mov i (next v _ m (.refl v m) ?_)
  rw [Cpu.reg_zero]
  exact .hold (h.setReg .x0 0 rfl) (Value.held_setReg c hn) room

end

theorem intConstant {n : UInt64} {k : Int32} (hn : n = k.toInt64.toUInt64)
    (room : depth (.int k :: x.stack) ≤ b.maxStack) :
    Implements a b s bcp 1 .none .int (intConstant n) x (x.push (.int k)) := by
  unfold Template.intConstant
  have held (c' : Cpu) (h : c'.reg .x0 = n) : (Value.int k).Held c' .int := h.trans hn
  split
  · next zero => exact movZero room fun c' h => held c' (h.trans zero.symm)
  · exact movImm room held

theorem longConstant {n : UInt64} {k : Int64} (hn : n = k.toUInt64)
    (room : depth (.long k :: x.stack) ≤ b.maxStack) :
    Implements a b s bcp 1 .none .long (Emit.movImm .x0 n) x (x.push (.long k)) :=
  movImm room fun _ h => h.trans hn

theorem floatConstant {precision : Precision} {bits : UInt64}
    (hn : ∀ c' : Cpu, c'.float .v0 = precision.truncate bits → w.Held c' tos)
    (room : depth (w :: x.stack) ≤ b.maxStack) :
    Implements a b s bcp 2 .none tos (floatConstant precision bits) x (x.push w) := by
  intro P turns v c m place ctx inStub K S q q' _ lay h next
  unfold Template.floatConstant at lay
  obtain ⟨p, h⟩ := h.stands
  obtain ⟨i₁, lay⟩ := lay.emit_bind
  obtain ⟨i₂, rfl⟩ := lay.emit
  refine .movImm i₁ (.floatOfBits i₂ (next v _ m (.refl v m) ?_))
  rw [Cpu.reg_setReg_self _ _ (by decide)]
  refine .hold ((h.setReg .scratch1 bits rfl).setFloat .v0 _) (hn _ ?_) room
  rw [Cpu.float_setFloat, if_pos rfl]

section
variable (hm : op ∈ Bytecode.decode b.code) (hb : bcp = a.code + op.bci.toUInt64)
include hm hb

theorem bipush (is : op.opcode = .bipush)
    (room : depth (.int (Int32.ofInt op.operand) :: x.stack) ≤ b.maxStack) :
    Implements a b s bcp 1 .none .int (ldrsb .x0 (Register.at .bytecode 1)) x
      (x.push (.int (Int32.ofInt op.operand))) := by
  intro P turns v c m place ctx inStub K S q q' _ lay h next
  obtain ⟨p, h⟩ := h.stands
  obtain ⟨i, rfl⟩ := lay.emit
  obtain ⟨operands, fetched⟩ := h.fetched hm hb
  have length : op.opcode.length = 2 := by rw [is]; rfl
  obtain ⟨y, rfl, byte⟩ := fetched.one length (by rw [is]; rfl)
  refine h.runSignedByte fetched i (by rw [length]; decide) byte (next v _ m (.refl v m) ?_)
  have operand : op.operand = Bytecode.signed8 y := by
    rw [fetched.operand]
    simp [Bytecode.operandOf, is]
  have small := operand ▸ signed8_bounds y
  refine .hold (h.setReg .x0 _ rfl) (Value.held_setReg c fun c' hc => ?_) room
  rw [signed_byte, ← operand] at hc
  rw [Value.Held, hc, toInt64_ofInt_small small]

theorem sipush (is : op.opcode = .sipush)
    (room : depth (.int (Int32.ofInt op.operand) :: x.stack) ≤ b.maxStack) :
    Implements a b s bcp 4 .none .int (signedPair .x0 .x1) x
      (x.push (.int (Int32.ofInt op.operand))) := by
  intro P turns v c m place ctx inStub K S q q' _ lay h next
  obtain ⟨p, h⟩ := h.stands
  obtain ⟨operands, fetched⟩ := h.fetched hm hb
  have length : op.opcode.length = 3 := by rw [is]; rfl
  refine h.runSignedPair fetched length (.inr is) lay (by decide) (by decide)
    fun c' h held => next v c' m (.refl v m) ?_
  obtain ⟨y, z, rfl, -⟩ := fetched.two length (by rw [is]; rfl)
  have small : -2 ^ 31 ≤ op.operand ∧ op.operand < 2 ^ 31 := by
    rw [fetched.operand]
    simp only [Bytecode.operandOf, is, reduceCtorEq, ↓reduceIte, or_true]
    have low := Int.le_bmod (x := Bytecode.bigEndian [y, z]) (m := 65536) (by decide)
    have high := Int.bmod_lt (x := Bytecode.bigEndian [y, z]) (m := 65536) (by decide)
    omega
  refine .hold h ?_ room
  rw [Value.Held, held, toInt64_ofInt_small small]

end

end Implements
end TemplateVm
