import TemplateVm.Proofs.Activation.Fetch
import TemplateVm.Proofs.Activation.Services
import TemplateVm.Proofs.Layout.Entries

set_option autoImplicit false
set_option synthInstance.maxSize 100000

/-!
# Linked operations

An operation with a pool index finds its cache entry resolved, and takes from it what resolution
has put there. A switch over the states of fields comes to the code for the state.
-/
namespace TemplateVm

open Memory (Guarded load)
open Bytecode (Operation)
open Guest Emit

variable {P : Vm → Prop} {turns : Nat} {v : Vm} {q q' : UInt64} {c : Cpu} {m : Guarded}
  {a : Activation} {b : Program} {bcp p : UInt64} {x : Contents} {place : CodeLabel → UInt64}
  {ctx : CodeContext} {inStub : Bool} {K S : List CodeLabel} {op : Operation}
  {operands : List UInt8}

/-! ## The index -/

/-- The operand bytes in native order are the index. -/
theorem Activation.Fetched.index (h : a.Fetched b m bcp op operands)
    (length : op.opcode.length = 3) (linked : op.opcode.isLinked = true) :
    load m.bytes (bcp.toNat + 1) 2 = op.operand.toNat.toUInt64 ∧ op.operand.toNat < 65536 := by
  obtain ⟨hi, lo, rfl⟩ : ∃ hi lo, operands = [hi, lo] := by
    have two : operands.length = 2 := by
      have := h.length
      omega
    exact ⟨_, _, List.eq_getElem_of_length_eq_two operands two⟩
  have plain : op.opcode ≠ .iinc ∧ op.opcode ≠ .sipush ∧ op.opcode.isBranch = false := by
    revert linked
    cases op.opcode <;> decide
  have operand : op.operand = (256 * hi.toNat + lo.toNat : Nat) := by
    rw [h.operand]
    simp [Bytecode.operandOf, Bytecode.bigEndian, plain]
  have low := h.native 0 lo (by simp [Bytecode.native, linked])
  have high := h.native 1 hi (by simp [Bytecode.native, linked])
  have low' := congrArg UInt64.toNat low
  have high' := congrArg UInt64.toNat high
  rw [Memory.load_one, UInt8.toNat_toUInt64, UInt8.toNat_toUInt64] at low' high'
  have small := hi.toNat_lt
  have small' := lo.toNat_lt
  rw [operand, Int.toNat_natCast]
  refine ⟨UInt64.toNat_inj.mp ?_, by omega⟩
  rw [Memory.load_succ (by decide), Memory.load_one, UInt8.toNat_toUInt64, Nat.add_assoc, high', low',
    UInt64.toNat_ofNat_of_lt' (by change _ < 2 ^ 64; omega)]
  omega

/-! ## The cache entry -/

namespace Stands

/-- A field of a cache entry is loaded. -/
theorem runCacheField (h : Stands a b bcp p x v c m) {r entry : Register} {k w : UInt64}
    {n : Width} {index : Nat}
    (i : v.image.code.Fetches q (.load r (cacheField entry k) n false))
    (base : (c.reg entry).toNat + 16 = a.entry index)
    (below : a.entry index + 32 ≤ a.heap.toNat) (inside : k.toNat + n.bytes.toNat ≤ 32)
    (holds : load m.bytes (a.entry index + k.toNat) n.bytes.toNat = w)
    (next : Vm.Arrives P turns (v.moved (q + 4) (c.setReg r w) m)) :
    Vm.Arrives P (turns + 1) (v.moved q c m) := by
  have bound := a.heap.toNat_lt
  have cache := h.loaded.cacheAbove
  have above : a.cache.toNat + 16 ≤ a.entry index := by
    rw [Activation.entry]
    omega
  have offset : (CacheRecord.base + k).toNat = 16 + k.toNat :=
    toNat_add_of_lt (p := CacheRecord.base) (by
      change 16 + k.toNat < _
      omega)
  have address : (c.reg entry + (CacheRecord.base + k)).toNat = a.entry index + k.toNat := by
    rw [toNat_add_of_lt (by omega)]
    omega
  exact .loadAt rfl i address (h.open_below (by omega) (by omega)) holds next

/-- What resolution has put into the entry of a field: the offset and the state. -/
theorem runLoadFieldEntry (h : Stands a b bcp p x v c m) {tos : Register} {slot : FieldSlot} {index : Nat}
    (base : (c.reg .x2).toNat + 16 = a.entry index) (below : a.entry index + 32 ≤ a.heap.toNat)
    (offset : load m.bytes (a.entry index + 16) 8 = slot.offset)
    (flags : load m.bytes (a.entry index + 24) 8 = packFlags 0 (.ofType slot.type))
    (lay : Lays ⟨v.image.code, place⟩ ctx inStub K S (loadFieldEntry .x2 tos) q q' ())
    (free : tos.isFixed = false ∧ tos ≠ .x1 ∧ tos ≠ .zero)
    (next : ∀ c', Stands a b bcp p x v c' m → c'.reg .x1 = slot.offset →
      c'.reg tos = (TopOfStack.ofType slot.type).index.toUInt64 →
      (∀ r, r ≠ .x1 → r ≠ tos → c'.reg r = c.reg r) → (∀ f, c'.float f = c.float f) →
      Vm.Arrives P turns (v.moved q' c' m)) : Vm.Arrives P (turns + 3) (v.moved q c m) := by
  obtain ⟨fixed, other, zero⟩ := free
  unfold loadFieldEntry at lay
  obtain ⟨i₁, lay⟩ := lay.emit_bind
  obtain ⟨i₂, lay⟩ := lay.emit_bind
  obtain ⟨i₃, rfl⟩ := lay.emit
  refine h.runCacheField i₁ base below (by decide) offset ?_
  replace h := h.setReg .x1 slot.offset rfl
  refine h.runCacheField i₂ ?_ below (by decide) flags (.shiftRight i₃ ?_)
  · rw [Cpu.reg_setReg_ne _ _ (by decide)]
    exact base
  rw [Cpu.reg_setReg_self _ _ zero]
  have state : packFlags 0 (.ofType slot.type) >>> CacheRecord.tosShift.toUInt64 =
      (TopOfStack.ofType slot.type).index.toUInt64 := by
    cases slot.type <;> decide
  rw [state]
  refine next _ ((h.setReg tos _ fixed).setReg tos _ fixed) ?_ (Cpu.reg_setReg_self _ _ zero)
    (fun r h₁ h₂ => ?_) fun f => ?_
  · rw [Cpu.reg_setReg_ne _ _ other.symm, Cpu.reg_setReg_ne _ _ other.symm,
      Cpu.reg_setReg_self _ _ (by decide)]
  · rw [Cpu.reg_setReg_ne _ _ h₂, Cpu.reg_setReg_ne _ _ h₂, Cpu.reg_setReg_ne _ _ h₁]
  · simp

section
variable (hm : op ∈ Bytecode.decode b.code) (hb : bcp = a.code + op.bci.toUInt64)
  (linked : op.opcode.isLinked = true) (length : op.opcode.length = 3)
include hm hb linked length

/-- The entry of an operation that is resolved is found without a call of the runtime. -/
theorem runResolveEntry (h : Stands a b bcp p x v c m) {field : UInt64} (inside : field.toNat < 8)
    (resolved : load m.bytes (a.entry op.operand.toNat + field.toNat) 1 = op.opcode.byte.toUInt64)
    (lay : Lays ⟨v.image.code, place⟩ ctx inStub K S (Emit.resolveEntry op.opcode field .x2 .x3) q
      q' ())
    (next : ∀ c', Stands a b bcp p x v c' m →
      (c'.reg .x2).toNat + 16 = a.entry op.operand.toNat →
      (∀ r, r ≠ .x2 → r ≠ .x3 → r ≠ .scratch1 → c'.reg r = c.reg r) →
      (∀ f, c'.float f = c.float f) → Vm.Arrives P turns (v.moved q' c' m)) :
    Vm.Arrives P (turns + 5) (v.moved q c m) := by
  have plain : op.opcode ≠ .invokedynamic := fun same => by
    rw [same] at length
    cases length
  unfold Emit.resolveEntry at lay
  simp only [plain, ↓reduceIte] at lay
  obtain ⟨done, lay⟩ := lay.newLabel_bind
  obtain ⟨⟨⟩, r₁, first, lay⟩ := lay.split
  obtain ⟨i₃, lay⟩ := lay.emit_bind
  obtain ⟨i₄, lay⟩ := lay.emit_bind
  obtain ⟨i₅, lay⟩ := lay.emitTo_bind
  obtain ⟨-, lay⟩ := lay.emit_bind
  obtain ⟨⟨⟩, r₂, -, lay⟩ := lay.split
  obtain ⟨⟨⟩, r₃, -, lay⟩ := lay.split
  obtain ⟨here, rfl⟩ := lay.bind
  rw [here] at i₅
  unfold Emit.loadCacheEntry at first
  simp only [show (2 : Nat) ≠ 4 by decide, ↓reduceIte] at first
  obtain ⟨i₁, first⟩ := first.emit_bind
  obtain ⟨i₂, rfl⟩ := first.emit
  obtain ⟨operands, fetched⟩ := h.fetched hm hb
  obtain ⟨index, small⟩ := fetched.index length linked
  obtain ⟨below, -⟩ := h.loaded.linked op hm linked
  obtain ⟨address, ok⟩ := h.readable fetched (n := 1) (w := 2) (c := c) (by rw [length]; decide)
  refine .load i₁ ok ?_
  rw [Cpu.rebase_base, address]
  change Vm.Arrives P _ (v.moved (q + 4) (c.setReg .x3 (load m.bytes (bcp.toNat + 1) 2)) m)
  rw [index]
  refine .binary i₂ ?_
  have shifted : (op.operand.toNat.toUInt64 <<< (5 : UInt64)).toNat = 32 * op.operand.toNat :=
    toNat_shiftLeft (k := CacheRecord.entryShift) (by decide) (by change 32 * _ < _; omega)
  have base : (Binary.apply ((c.setReg .x3 op.operand.toNat.toUInt64).reg .cache)
      ((c.setReg .x3 op.operand.toNat.toUInt64).operand (Register.x3.lsl CacheRecord.entryShift))
        .add).toNat + 16 = a.entry op.operand.toNat := by
    change (Cpu.reg _ .cache + Cpu.reg _ .x3 <<< 5).toNat + 16 = _
    rw [Cpu.reg_setReg_ne _ _ (by decide), Cpu.reg_setReg_self _ _ (by decide),
      h.registers.cache, Activation.entry]
    have heap := a.heap.toNat_lt
    rw [Activation.entry] at below
    rw [toNat_add_of_lt (by omega), shifted]
    omega
  generalize Binary.apply _ _ .add = entry at base ⊢
  replace h := (h.setReg .x3 op.operand.toNat.toUInt64 rfl).setReg .x2 entry rfl
  have held : (((c.setReg .x3 op.operand.toNat.toUInt64).setReg .x2 entry).reg .x2).toNat + 16 =
      a.entry op.operand.toNat := by
    rw [Cpu.reg_setReg_self _ _ (by decide)]
    exact base
  refine h.runCacheField i₃ held below (by change _ + 1 ≤ _; omega) resolved (.compare i₄ ?_)
  have same : (Flags.ofCompare op.opcode.byte.toUInt64 op.opcode.byte.toUInt64).z = true := by
    simp [Flags.ofCompare]
  refine .branchIf i₅ (fun _ => ?_) fun no => ?_
  · refine next _ ((h.setReg .scratch1 _ rfl).setFlags _) ?_ (fun r h₂ h₃ h₁ => ?_) fun f => ?_
    · rw [Cpu.reg_setFlags, Cpu.reg_setReg_ne _ _ (by decide)]
      exact held
    · rw [Cpu.reg_setFlags, Cpu.reg_setReg_ne _ _ h₁, Cpu.reg_setReg_ne _ _ h₂,
        Cpu.reg_setReg_ne _ _ h₃]
    · simp
  · change Flags.z _ = false at no
    rw [Cpu.flags_setFlags, Cpu.reg_setReg_self _ _ (by decide)] at no
    exact absurd (same.symm.trans no) (by decide)

end
end Stands

/-! ## The switch -/

/-- A switch goes to the code for the state whose number it is given, and from the end of that code
    to its own end. -/
theorem Vm.Arrives.switch {F : Finished}
    (sub : ∀ p j, F.code.Fetches p j → v.image.code.Fetches p j) {tos : Register} {state : TopOfStack}
    {code : TopOfStack → Emit Unit} {n : Nat} [each : ∀ K S t, Orderly ctx inStub K S S n (code t)]
    (lay : Lays F ctx inStub K S (switchState tos code) q q' ())
    (number : c.reg tos = state.index.toUInt64) (known : state ∈ fieldStates)
    (next : ∀ K S r r' f, Lays F ctx inStub K S (code state) r r' () →
      (∀ (v' : Vm) c' m' left, v'.image = v.image → Vm.Arrives P left (v'.moved q' c' m') →
        Vm.Arrives P (left + 1) (v'.moved r' c' m')) →
      Vm.Arrives P turns (v.moved r (c.setFlags f) m)) :
    Vm.Arrives P (turns + 18) (v.moved q c m) := by
  unfold switchState at lay
  obtain ⟨done, lay₁⟩ := lay.newLabel_bind
  obtain ⟨⟨⟩, r, cases, lay₂⟩ := lay₁.split
  obtain ⟨⟨⟩, r', -, lay₃⟩ := lay₂.split
  obtain ⟨here, rfl⟩ := lay₃.bind
  clear lay lay₁ lay₂ lay₃
  -- the states before the one that is looked for only change the flags
  change Vm.Arrives P (turns + 2 * fieldStates.length) _
  generalize fieldStates = states at cases known ⊢
  induction states generalizing q c with
  | nil => cases known
  | cons t states ih =>
    obtain ⟨r₁, first, rest⟩ := Lays.forM_cons (n := n + 3)
      (o := fun t => Orderly.upto inferInstance (by omega)) cases
    obtain ⟨behind, first⟩ := first.newLabel_bind
    obtain ⟨i₁, first⟩ := first.emit_bind
    obtain ⟨i₂, first⟩ := first.emitTo_bind
    obtain ⟨⟨⟩, r₂, taken, first⟩ := first.split
    obtain ⟨i₃, first⟩ := first.emitTo_bind
    obtain ⟨there, rfl⟩ := first.bind
    rw [here] at i₃
    rw [there] at i₂
    replace i₃ := sub _ _ i₃
    refine .compare (sub _ _ i₁) ?_
    change Vm.Arrives P (turns + 2 * states.length + 1) _
    have equal : (Flags.ofCompare (c.reg tos) (c.operand (.imm t.index.toUInt64))).z =
        decide (state = t) := by
      change (c.reg tos - t.index.toUInt64 == 0) = _
      rw [number]
      cases state <;> cases t <;> rfl
    refine .branchIf (sub _ _ i₂) (fun other => ?_) fun same => ?_
    · change (!Flags.z _) = true at other
      rw [Cpu.flags_setFlags, equal] at other
      have skipped : state ≠ t := by simpa using other
      exact ih number next rest ((List.mem_cons.mp known).resolve_left skipped)
    · change (!Flags.z _) = false at same
      rw [Cpu.flags_setFlags, equal] at same
      obtain rfl : state = t := by simpa using same
      refine (next _ _ _ _ _ taken fun v' c' m' left image arrives => ?_).le (Nat.le_add_right ..)
      rw [← image] at i₃
      exact .branch i₃ arrives

end TemplateVm
