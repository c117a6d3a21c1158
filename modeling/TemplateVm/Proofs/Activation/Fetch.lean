import Mathlib.Algebra.Group.Int.Defs
import TemplateVm.Proofs.Activation.Operands
import TemplateVm.Proofs.Guest.Operations

set_option autoImplicit false
set_option synthInstance.maxSize 100000

/-!
# Fetching bytecodes

The machine reads opcodes and operands where the body of the method lies, goes to the entry that the
dispatch table has for an opcode, and leaves in registers the numbers that the operand bytes make.
-/
namespace TemplateVm

open Memory (Guarded load)
open Bytecode (Operation)
open Guest Emit Template

/-- The bytecode pointer is at an operation with these operand bytes. -/
structure Activation.Fetched (a : Activation) (b : Program) (m : Guarded) (bcp : UInt64)
    (op : Operation) (operands : List UInt8) : Prop where
  length : operands.length + 1 = op.opcode.length
  operand : op.operand = Bytecode.operandOf op.opcode operands
  above : 0x20000 ≤ bcp.toNat
  below : bcp.toNat + op.opcode.length ≤ a.heap.toNat
  opcode : load m.bytes bcp.toNat 1 = op.opcode.byte.toUInt64
  native : ∀ (j : Nat) (y : UInt8), (Bytecode.native op.opcode operands)[j]? = some y →
    load m.bytes (bcp.toNat + 1 + j) 1 = y.toUInt64
  code : ∀ (j : Nat) (y : UInt8), operands[j]? = some y → b.code[op.bci + 1 + j]? = some y

variable {P : Vm → Prop} {turns : Nat} {u v : Vm} {q q' : UInt64} {c : Cpu} {m m' : Guarded}
  {a : Activation} {b : Program} {bcp p : UInt64} {x : Contents} {place : CodeLabel → UInt64}
  {ctx : CodeContext} {inStub : Bool} {K S : List CodeLabel} {tos : TopOfStack} {op : Operation}
  {operands : List UInt8} {r : Register}

theorem Guest.Program.bci_of_operation? {bci : Int} (h : b.operation? bci = some op) :
    (op.bci : Int) = bci ∧ op ∈ Bytecode.decode b.code :=
  ⟨by simpa using List.find?_some h, List.mem_of_find?_eq_some h⟩

namespace Stands

theorem fetched (h : Stands a b bcp p x u c m) (hm : op ∈ Bytecode.decode b.code)
    (hb : bcp = a.code + op.bci.toUInt64) : ∃ operands, a.Fetched b m bcp op operands := by
  obtain ⟨body, order, fits, bytes⟩ := h.loaded.code
  obtain ⟨operands, place⟩ := Bytecode.at_of_mem_decode hm order
  have above := h.loaded.codeAbove
  have bound := a.heap.toNat_lt
  have first : op.bci < body.length := by
    simpa using (List.getElem?_eq_some_iff.mp place.opcode).1
  have index : op.bci.toUInt64.toNat = op.bci :=
    UInt64.toNat_ofNat_of_lt' (by change _ < 2 ^ 64; omega)
  have address : bcp.toNat = a.code.toNat + op.bci := by
    rw [hb, toNat_add_of_lt (by omega), index]
  have byte (k : Nat) (y : UInt8) (hy : body[op.bci + k]? = some y) :
      load m.bytes (bcp.toNat + k) 1 = y.toUInt64 := by
    rw [Memory.load_one, address, Nat.add_assoc, bytes _ _ hy]
  refine ⟨operands, place.length, place.operand, by omega, ?_, ?_, ?_, ?_⟩
  · have length := place.length
    have same := Bytecode.length_native op.opcode operands
    by_cases none : operands.length = 0
    · omega
    · obtain ⟨y, hy⟩ : ∃ y, (Bytecode.native op.opcode operands)[operands.length - 1]? = some y :=
        ⟨_, List.getElem?_eq_getElem (by omega)⟩
      have last := (List.getElem?_eq_some_iff.mp (place.nativeOperands _ _ hy)).1
      omega
  · exact byte 0 _ (by simpa using place.opcode)
  · intro j y hy
    rw [Nat.add_assoc]
    exact byte (1 + j) y (by simpa [Nat.add_assoc] using place.nativeOperands j y hy)
  · intro j y hy
    simpa using place.operands j y hy

/-- The memory below the heap can be read. -/
theorem open_below (h : Stands a b bcp p x u c m) {k n : UInt64} (above : 0x1000 ≤ k.toNat)
    (below : k.toNat + n.toNat ≤ a.heap.toNat) : m.Open k n := by
  have heap := h.fits.heap
  exact h.fits.clear.open above (by omega)

/-- Goes on with the opcode in the scratch register, by the table that is active. -/
theorem runDispatchOn (h : Stands a b bcp p x u c m) {o : Opcode}
    (lay : Lays ⟨v.image.code, place⟩ ctx inStub K S (Emit.dispatchOn tos) q q' ())
    (byte : c.reg .scratch1 = o.byte.toUInt64)
    (next : ∀ c', Stands a b bcp p x u c' m →
      (∀ r, r ≠ .scratch1 → r ≠ .scratch2 → c'.reg r = c.reg r) →
      (∀ f, c'.float f = c.float f) →
      Vm.Arrives P turns (v.moved (u.image.normalTable.get tos o.byte) c' m)) :
    Vm.Arrives P (turns + 3) (v.moved q c m) := by
  have go {c₁ : Cpu} {q₁ q₂ : UInt64} (h₁ : Stands a b bcp p x u c₁ m)
      (same : ∀ r, r ≠ .scratch1 → c₁.reg r = c.reg r) (floats : ∀ f, c₁.float f = c.float f)
      (slot : (c₁.reg .scratch1).toNat = 256 * tos.index + o.byte.toNat)
      (lay : Lays ⟨v.image.code, place⟩ ctx inStub K S (do
        ldr .scratch2 (.index .dispatch .scratch1 3)
        br .scratch2) q₁ q₂ ()) : Vm.Arrives P (turns + 2) (v.moved q₁ c₁ m) := by
    obtain ⟨i₁, lay⟩ := lay.emit_bind
    obtain ⟨i₂, rfl⟩ := lay.emit
    have hb : o.byte.toNat < 256 := o.byte.toNat_lt
    have ht : tos.index < 10 := by cases tos <;> decide
    have records := h.fits.records
    have base : Place.activeTable.toNat = 0x10000 := rfl
    have address : (c₁.target (.index .dispatch .scratch1 3)).toNat =
        (Place.dispatchSlot Place.activeTable tos o.byte).toNat := by
      rw [Activation.dispatchSlot_toNat, Cpu.target_index, h₁.registers.dispatch, UInt64.toNat_add,
        UInt64.toNat_shiftLeft, slot, base]
      change (0x10000 + (256 * tos.index + o.byte.toNat) <<< 3 % 2 ^ 64) % 2 ^ 64 = _
      rw [Nat.shiftLeft_eq]
      omega
    have entry := h.loaded.table tos o
    have spot := Activation.dispatchSlot_toNat tos o.byte
    refine .load i₁ (h.open_below (by omega) ?_) (.branchTo i₂ ?_)
    · change _ + 8 ≤ _
      omega
    · rw [Cpu.rebase_index, Cpu.reg_setReg_self _ _ (by decide), address]
      change Vm.Arrives P _ (v.moved (load m.bytes _ 8) (c₁.setReg .scratch2 (load m.bytes _ 8)) m)
      rw [entry]
      refine next _ (h₁.setReg .scratch2 _ rfl) (fun r h₁ h₂ => ?_) fun f => ?_
      · rw [Cpu.reg_setReg_ne _ _ h₂, same r h₁]
      · rw [Cpu.float_setReg, floats]
  have ht : tos.index < 10 := by cases tos <;> decide
  have hb : o.byte.toNat < 256 := o.byte.toNat_lt
  unfold Emit.dispatchOn at lay
  by_cases zero : tos.index ≠ 0
  · replace lay := lay.ite_pos zero
    obtain ⟨i, lay⟩ := lay.emit_bind
    have index : (tos.index * 256).toUInt64.toNat = tos.index * 256 :=
      UInt64.toNat_ofNat_of_lt' (by change _ < 2 ^ 64; omega)
    refine .binary i (go (h.setReg .scratch1 _ rfl) ?_ ?_ ?_ lay)
    · exact fun r hr => Cpu.reg_setReg_ne _ _ hr
    · exact fun f => Cpu.float_setReg ..
    · rw [Cpu.reg_setReg_self _ _ (by decide), byte]
      change (o.byte.toUInt64 + (tos.index * 256).toUInt64).toNat = _
      rw [UInt64.toNat_add, index, UInt8.toNat_toUInt64]
      omega
  · replace lay := lay.ite_neg zero
    refine (go h (fun _ _ => rfl) (fun _ => rfl) ?_ lay).le (by omega)
    rw [byte, UInt8.toNat_toUInt64]
    omega

/-- Goes on with an operation at a distance from the current one. -/
theorem runDispatchTo (h : Stands a b bcp p x u c m) {step : UInt64}
    (lay : Lays ⟨v.image.code, place⟩ ctx inStub K S (Emit.dispatchNext tos step) q q' ())
    (hm : op ∈ Bytecode.decode b.code) (there : bcp + step = a.code + op.bci.toUInt64)
    (next : ∀ c', Stands a b (bcp + step) p x u c' m →
      (∀ r, r ≠ .bytecode → r ≠ .scratch1 → r ≠ .scratch2 → c'.reg r = c.reg r) →
      (∀ f, c'.float f = c.float f) →
      Vm.Arrives P turns (v.moved (u.image.normalTable.get tos op.opcode.byte) c' m)) :
    Vm.Arrives P (turns + 4) (v.moved q c m) := by
  unfold Emit.dispatchNext at lay
  obtain ⟨i, lay⟩ := lay.emit_bind
  have moved : c.reg .bytecode + step = bcp + step := by rw [h.registers.bytecode]
  replace h := h.setBytecode (bcp + step)
  obtain ⟨operands, fetched⟩ := h.fetched hm there
  have above := fetched.above
  have below := fetched.below
  have length := Bytecode.length_pos op.opcode
  refine .load i ?_ ?_
  · rw [Cpu.target_pre, moved]
    refine h.open_below (by omega) ?_
    change _ + 1 ≤ _
    omega
  rw [Cpu.target_pre, Cpu.rebase_pre, moved]
  change Vm.Arrives P _ (v.moved _ (Cpu.setReg _ .scratch1 (load m.bytes _ 1)) m)
  rw [fetched.opcode]
  refine (h.setReg .scratch1 _ rfl).runDispatchOn lay (Cpu.reg_setReg_self _ _ (by decide))
    fun c' h same floats => next c' h (fun r h₀ h₁ h₂ => ?_) fun f => ?_
  · rw [same r h₁ h₂, Cpu.reg_setReg_ne _ _ h₁, Cpu.reg_setReg_ne _ _ h₀]
  · rw [floats, Cpu.float_setReg, Cpu.float_setReg]

end Stands

/-! ## Operands as numbers -/

theorem toInt_pair (hi lo : UInt8) :
    (hi.toBitVec ++ lo.toBitVec).toInt = Int.bmod (256 * hi.toNat + lo.toNat) 65536 := by
  rw [BitVec.toInt_eq_toNat_bmod, BitVec.toNat_append,
    ← Nat.shiftLeft_add_eq_or_of_lt lo.toBitVec.isLt, Nat.shiftLeft_eq]
  simp [Nat.mul_comm]

/-- Two bytes make a signed number, the first one high. -/
theorem signed_pair (hi lo : UInt8) :
    (Extension.signByte.apply hi.toUInt64 <<< 8) ||| lo.toUInt64 =
      (Int64.ofInt (Int.bmod (256 * hi.toNat + lo.toNat) 65536)).toUInt64 := by
  rw [← toInt_pair]
  refine UInt64.toBitVec_inj.mp ?_
  change _ = BitVec.signExtend 64 (hi.toBitVec ++ lo.toBitVec)
  ext i bound
  simp [Extension.apply]
  grind

theorem signed_byte (y : UInt8) :
    Extension.signByte.apply y.toUInt64 = (Int64.ofInt (Bytecode.signed8 y)).toUInt64 := by
  rw [Bytecode.signed8, Int64.ofInt_int8ToInt]
  simp [Extension.apply]

theorem signed8_bounds (y : UInt8) :
    -2 ^ 31 ≤ Bytecode.signed8 y ∧ Bytecode.signed8 y < 2 ^ 31 := by
  have low := y.toInt8.le_toInt
  have high := y.toInt8.toInt_lt
  rw [Bytecode.signed8]
  omega

/-- A number of few bits is the same as an int and as a long. -/
theorem toInt64_ofInt_small {k : Int} (h : -2 ^ 31 ≤ k ∧ k < 2 ^ 31) :
    (Int32.ofInt k).toInt64 = Int64.ofInt k :=
  Int32.toInt64_ofInt h.1 (Int.le_sub_one_of_lt h.2)

/-! ## Operand bytes -/

namespace Activation.Fetched

theorem one (h : a.Fetched b m bcp op operands) (length : op.opcode.length = 2)
    (plain : op.opcode.isLinked = false) :
    ∃ y, operands = [y] ∧ load m.bytes (bcp.toNat + 1) 1 = y.toUInt64 := by
  obtain ⟨y, rfl⟩ := List.length_eq_one_iff.mp (show operands.length = 1 by
    have := h.length
    omega)
  refine ⟨y, rfl, h.native 0 y ?_⟩
  simp [Bytecode.native, plain]

theorem two (h : a.Fetched b m bcp op operands) (length : op.opcode.length = 3)
    (plain : op.opcode.isLinked = false) :
    ∃ y z, operands = [y, z] ∧ load m.bytes (bcp.toNat + 1) 1 = y.toUInt64 ∧
      load m.bytes (bcp.toNat + 2) 1 = z.toUInt64 := by
  obtain ⟨y, z, rfl⟩ : ∃ y z, operands = [y, z] := by
    have two : operands.length = 2 := by
      have := h.length
      omega
    exact ⟨_, _, List.eq_getElem_of_length_eq_two operands two⟩
  refine ⟨y, z, rfl, h.native 0 y ?_, h.native 1 z ?_⟩
  · simp [Bytecode.native, plain]
  · simp [Bytecode.native, plain]

end Activation.Fetched

namespace Stands

/-- A byte of the operation can be read. -/
theorem readable (h : Stands a b bcp p x v c m) (fetched : a.Fetched b m bcp op operands)
    {n w : UInt64} (inside : n.toNat + w.toNat ≤ op.opcode.length) :
    (c.target (.base .bytecode n)).toNat = bcp.toNat + n.toNat ∧
      m.Open (c.target (.base .bytecode n)) w := by
  have above := fetched.above
  have below := fetched.below
  have bound := a.heap.toNat_lt
  have address : (c.target (.base .bytecode n)).toNat = bcp.toNat + n.toNat := by
    rw [Cpu.target_base, h.registers.bytecode]
    exact toNat_add_of_lt (by omega)
  exact ⟨address, h.open_below (by omega) (by omega)⟩

theorem runByte (h : Stands a b bcp p x v c m) (fetched : a.Fetched b m bcp op operands)
    {n : UInt64} {y : UInt8} (i : v.image.code.Fetches q (.load r (.base .bytecode n) .byte false))
    (inside : n.toNat + 1 ≤ op.opcode.length)
    (byte : load m.bytes (bcp.toNat + n.toNat) 1 = y.toUInt64)
    (next : Vm.Arrives P turns (v.moved (q + 4) (c.setReg r y.toUInt64) m)) :
    Vm.Arrives P (turns + 1) (v.moved q c m) := by
  obtain ⟨address, ok⟩ := h.readable fetched (w := 1) inside
  refine .load i ok ?_
  rw [Cpu.rebase_base, address]
  change Vm.Arrives P _ (v.moved (q + 4) (c.setReg r (load m.bytes _ 1)) m)
  rw [byte]
  exact next

theorem runSignedByte (h : Stands a b bcp p x v c m) (fetched : a.Fetched b m bcp op operands)
    {n : UInt64} {y : UInt8} (i : v.image.code.Fetches q (.load r (.base .bytecode n) .byte true))
    (inside : n.toNat + 1 ≤ op.opcode.length)
    (byte : load m.bytes (bcp.toNat + n.toNat) 1 = y.toUInt64)
    (next : Vm.Arrives P turns
      (v.moved (q + 4) (c.setReg r (Extension.signByte.apply y.toUInt64)) m)) :
    Vm.Arrives P (turns + 1) (v.moved q c m) := by
  obtain ⟨address, ok⟩ := h.readable fetched (w := 1) inside
  refine .loadSigned i ok ?_
  rw [Cpu.rebase_base, address]
  change Vm.Arrives P _
    (v.moved (q + 4) (c.setReg r (Extension.signByte.apply (load m.bytes _ 1))) m)
  rw [byte]
  exact next

/-- The signed operand of two bytes comes into the first register. -/
theorem runSignedPair {low : Register} (h : Stands a b bcp p x v c m)
    (fetched : a.Fetched b m bcp op operands) (length : op.opcode.length = 3)
    (signed : op.opcode.isBranch = true ∨ op.opcode = .sipush)
    (lay : Lays ⟨v.image.code, place⟩ ctx inStub K S (signedPair r low) q q' ())
    (free : r.isFixed = false ∧ low.isFixed = false) (apart : low ≠ r ∧ r ≠ .zero ∧ low ≠ .zero)
    (next : ∀ c', Stands a b bcp p x v c' m →
      c'.reg r = (Int64.ofInt op.operand).toUInt64 →
      Vm.Arrives P turns (v.moved q' c' m)) : Vm.Arrives P (turns + 4) (v.moved q c m) := by
  unfold signedPair at lay
  obtain ⟨i₁, lay⟩ := lay.emit_bind
  obtain ⟨i₂, lay⟩ := lay.emit_bind
  obtain ⟨i₃, lay⟩ := lay.emit_bind
  obtain ⟨i₄, rfl⟩ := lay.emit
  have plain : op.opcode.isLinked = false ∧ op.opcode ≠ .iinc := by
    rcases signed with branch | same
    · revert branch
      cases op.opcode <;> decide
    · rw [same]
      decide
  obtain ⟨hi, lo, rfl, first, second⟩ := fetched.two length plain.1
  have operand : op.operand = Int.bmod (256 * hi.toNat + lo.toNat) 65536 := by
    rw [fetched.operand]
    simp [Bytecode.operandOf, Bytecode.bigEndian, plain.2, signed]
  refine h.runSignedByte fetched i₁ (by rw [length]; decide) first ?_
  refine (h.setReg r _ free.1).runByte fetched i₂ (by rw [length]; decide) second ?_
  refine .shiftLeft i₃ (.binary i₄ ?_)
  have high (c : Cpu) (n n' : UInt64) : ((c.setReg r n).setReg low n').reg r = n := by
    rw [Cpu.reg_setReg_ne _ _ apart.1.symm, Cpu.reg_setReg_self _ _ apart.2.1]
  have deep (c : Cpu) (n n' : UInt64) : ((c.setReg low n).setReg r n').reg low = n := by
    rw [Cpu.reg_setReg_ne _ _ apart.1, Cpu.reg_setReg_self _ _ apart.2.2]
  refine next _ ((((h.setReg r _ free.1).setReg low _ free.2).setReg r _ free.1).setReg r _ free.1) ?_
  rw [Cpu.reg_setReg_self _ _ apart.2.1, Cpu.reg_setReg_self _ _ apart.2.1, high]
  change _ ||| (((c.setReg r _).setReg low _).setReg r _).reg low = _
  rw [deep, operand, ← signed_pair]
  rfl

end Stands
end TemplateVm
