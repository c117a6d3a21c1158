import TemplateVm.Proofs.Activation.Leaving
import TemplateVm.Proofs.Activation.Linked
import TemplateVm.Codegen.Returns

set_option autoImplicit false
set_option synthInstance.maxSize 100000

/-!
# Callers that wait

A caller keeps its operands and its place in the code in its frame while a callee runs below it.
When the callee is gone, the caller finds its registers from there.
-/
namespace TemplateVm

open Memory (Guarded load byteAt)
open Guest Emit

namespace Activation

/-- What the frame keeps while a callee runs: the bytecode of the call, and where the operands end
    with the arguments. -/
structure Suspended (a : Activation) (bcp saved : UInt64) (m : Guarded) : Prop where
  bytecode : load m.bytes (a.frame.toNat - 56) 8 = bcp
  operands : load m.bytes (a.frame.toNat - 16) 8 = saved

theorem Suspended.agrees {a : Activation} {bcp saved : UInt64} {m m' : Guarded}
    (h : a.Suspended bcp saved m) (room : 64 ≤ a.frame.toNat)
    (bytecode : m.Agrees m' (a.frame.toNat - 56) (a.frame.toNat - 48))
    (operands : m.Agrees m' (a.frame.toNat - 16) (a.frame.toNat - 8)) : a.Suspended bcp saved m' where
  bytecode := by rw [bytecode.load (by omega) (by omega), h.bytecode]
  operands := by rw [operands.load (by omega) (by omega), h.operands]

/-- A callee whose frame lies below the operands of its caller. -/
structure Below (d a : Activation) (p : UInt64) : Prop where
  thread : d.thread = a.thread
  low : a.thread.toNat + 0x1000 ≤ d.low
  frame : d.frame.toNat ≤ p.toNat + 8

end Activation

variable {P : Vm → Prop} {turns : Nat} {v : Vm} {q q' : UInt64} {c c' : Cpu} {m m' : Guarded}
  {a d : Activation} {b : Program} {bcp p saved : UInt64} {x : Contents}
  {place : CodeLabel → UInt64} {ctx : CodeContext} {inStub : Bool} {K S : List CodeLabel}
  {tos : TopOfStack} {l s : Nat}

namespace Stands

/-- Other registers that are as the activation wants them. -/
theorem withRegisters (h : Stands a b bcp p x v c m) (registers : a.Registers bcp p c') :
    Stands a b bcp p x v c' m := { h with registers }

/-- Only the parts of the activation count, and a request to pop a frame has to be over. -/
theorem agreeing (h : Stands a b bcp p x v c m) (size : m'.bytes.size = m.bytes.size)
    (guards : m'.guards = m.guards) (pop : load m'.bytes (a.thread.toNat + 48) 4 &&& 1 = 0)
    (other : ∀ j, 0x10000 ≤ j ∧ j < a.thread.toNat + 8 ∨ p.toNat ≤ j ∧ j < a.frame.toNat - 56 ∨
      a.frame.toNat - 48 ≤ j ∧ j < a.frame.toNat - 16 ∨ a.frame.toNat ≤ j →
        byteAt m'.bytes j = byteAt m.bytes j) : Stands a b bcp p x v c m' := by
  have f := h.fits
  have records := f.records
  have heap := f.heap
  have top := h.top
  have bounds := h.bounds
  have above := f.top
  have agrees {s t : Nat} (within : 0x10000 ≤ s ∧ t ≤ a.thread.toNat + 8 ∨
      p.toNat ≤ s ∧ t ≤ a.frame.toNat - 56 ∨
      a.frame.toNat - 48 ≤ s ∧ t ≤ a.frame.toNat - 16 ∨ a.frame.toNat ≤ s) :
      m.Agrees m' s t := fun j _ _ => other j (by omega)
  exact {
    registers := h.registers
    fits := f.congr size guards
    loaded := h.loaded.agrees f.records (agrees (by omega))
    idle := ⟨((agrees (s := a.thread.toNat) (t := a.thread.toNat + 8) (by omega)).load
      (Nat.le_refl _) (Nat.le_refl _)).trans h.idle.pending, pop⟩
    framed := h.framed.agrees (by omega) (agrees (by omega)) (agrees (by omega))
    locals := h.locals.agrees f.frame (agrees (by omega))
    stack := h.stack.agrees (agrees (s := p.toNat) (t := a.top.toNat) (by omega)) (by omega)
    top := h.top
    bounded := h.bounded
    heap := h.heap.agrees (agrees (by omega))
    inhabits := h.inhabits }

/-- A callee that changes only what its frame is about leaves its caller as it is. -/
theorem confined (h : Stands a b bcp p x v c m) (hc : d.Confined m m') (below : d.Below a p) :
    Stands a b bcp p x v c m' := by
  have thread := below.thread
  have low := below.low
  have frame := below.frame
  have bounds := h.bounds
  have top := h.top
  have above := h.fits.top
  refine h.agreeing hc.size hc.guards ?_ fun j hj => hc.other j ?_
  · rw [← thread, (hc.agrees (s := d.thread.toNat + 48) (t := d.thread.toNat + 52)
      (by omega)).load (Nat.le_refl _) (Nat.le_refl _), thread]
    exact h.idle.pop
  · rw [thread]
    omega

end Stands

/-! ## The registers of a caller -/

namespace Emit

/-- The caller gets back what its frame keeps. -/
def restoreCaller : Emit Unit := do
  ldr Register.operands (frameSlot Frame.lastSp)
  str Register.zero (frameSlot Frame.lastSp)
  restoreBytecode
  restoreLocals
  restoreCache
  loadMethod Register.method

/-- The arguments of the call are no operands of the caller any more. -/
def dropArguments (indexBytes : Nat) : Emit Unit := do
  loadCacheEntry Register.x1 Register.x2 1 indexBytes
  ldr Register.x1 (cacheField Register.x1 CacheRecord.flags)
  and Register.x1 Register.x1 CacheRecord.parameterMask
  add Register.operands Register.operands (Register.x1.lsl 3)

theorem returnEntry_eq (tos : TopOfStack) (length : UInt64) (indexBytes : Nat) :
    returnEntry tos length indexBytes = (do
      let entry ← pc
      restoreCaller
      dropArguments indexBytes
      restoreSp 2
      loadDispatch
      dispatchNext tos length
      pure entry) := by
  simp only [returnEntry, restoreCaller, dropArguments, bind_assoc]

end Emit

instance Orderly.restoreCaller {b : Bool} : Orderly ctx b K S S 6 restoreCaller := by
  unfold Emit.restoreCaller
  exact upto inferInstance (by decide)

instance Orderly.dropArguments {b : Bool} {n : Nat} : Orderly ctx b K S S 8 (dropArguments n) := by
  unfold Emit.dropArguments
  exact upto inferInstance (by decide)

/-- What a caller has again when its callee is gone. -/
structure Activation.Regained (a : Activation) (bcp operands : UInt64) (c : Cpu) : Prop where
  thread : c.reg .thread = a.thread
  frame : c.reg .frame = a.frame
  operands : c.reg .operands = operands
  bytecode : c.reg .bytecode = bcp
  locals : c.reg .locals = a.locals
  cache : c.reg .cache = a.cache
  method : c.reg .method = a.method

/-- All registers that templates rely on, with those for the dispatch table and the stack. -/
theorem Activation.Regained.registers {operands : UInt64} (h : a.Regained bcp operands c)
    (dispatch : c.reg .dispatch = Place.activeTable) (sp : c.reg .sp = a.sp) :
    a.Registers bcp operands c :=
  ⟨h.thread, h.frame, h.locals, h.cache, dispatch, sp, h.bytecode, h.operands⟩

theorem Activation.Regained.spares {operands : UInt64} {rs : List Register}
    (h : a.Regained bcp operands c) (spares : c.Spares c' rs)
    (free : ∀ r ∈ [Register.thread, .frame, .operands, .bytecode, .locals, .cache, .method], r ∉ rs) :
    a.Regained bcp operands c' where
  thread := (spares.regs _ (free _ (by simp))).trans h.thread
  frame := (spares.regs _ (free _ (by simp))).trans h.frame
  operands := (spares.regs _ (free _ (by simp))).trans h.operands
  bytecode := (spares.regs _ (free _ (by simp))).trans h.bytecode
  locals := (spares.regs _ (free _ (by simp))).trans h.locals
  cache := (spares.regs _ (free _ (by simp))).trans h.cache
  method := (spares.regs _ (free _ (by simp))).trans h.method

theorem Activation.Placed.runRestoreCaller (h : a.Placed l s c m) (framed : a.Framed m)
    (suspended : a.Suspended bcp saved m)
    (lay : Lays ⟨v.image.code, place⟩ ctx inStub K S restoreCaller q q' ())
    (next : ∀ c' m', a.Regained bcp saved c' →
      c.Spares c' [.operands, .bytecode, .locals, .cache, .method] →
      m.Changed m' (a.frame.toNat - 16) (a.frame.toNat - 8) →
      Vm.Arrives P turns (v.moved q' c' m')) : Vm.Arrives P (turns + 6) (v.moved q c m) := by
  unfold restoreCaller at lay
  obtain ⟨i₁, lay⟩ := lay.emit_bind
  obtain ⟨i₂, lay⟩ := lay.emit_bind
  obtain ⟨i₃, lay⟩ := Lays.emit_bind
    (i := .load .bytecode (.base .frame Frame.bytecode) .double false) lay
  obtain ⟨i₄, lay⟩ := Lays.emit_bind (i := .load .locals (.base .frame Frame.locals) .double false) lay
  obtain ⟨i₅, lay⟩ := Lays.emit_bind (i := .load .cache (.base .frame Frame.cache) .double false) lay
  obtain ⟨i₆, rfl⟩ := Lays.emit (i := .load .method (.base .frame Frame.method) .double false) lay
  have spares₁ : c.Spares (c.setReg .operands saved)
      [.operands, .bytecode, .locals, .cache, .method] :=
    (Cpu.Spares.refl c _).setReg (by simp) saved
  have top := h.fits.top
  refine h.runFrameLoad i₁ (by decide) (by decide) suspended.operands <|
    (h.spares spares₁ (by decide) (by decide)).runFrameStore i₂ (by decide) (by decide)
      fun changed => ?_
  generalize m.put _ 8 _ = m₁ at changed ⊢
  change m.Changed m₁ (a.frame.toNat - 16) (a.frame.toNat - 16 + 8) at changed
  rw [show a.frame.toNat - 16 + 8 = a.frame.toNat - 8 by omega] at changed
  have kept (k : Nat) (hk : k + 8 ≤ a.frame.toNat - 16) :
      load m₁.bytes k 8 = load m.bytes k 8 :=
    (changed.agrees (s := k) (t := k + 8) (.inl hk)).load (Nat.le_refl _) (Nat.le_refl _)
  have spares₂ := spares₁.setReg (r := .bytecode) (by simp) bcp
  have spares₃ := spares₂.setReg (r := .locals) (by simp) a.locals
  have spares₄ := spares₃.setReg (r := .cache) (by simp) a.cache
  have spares₅ := spares₄.setReg (r := .method) (by simp) a.method
  have h₁ := h.changed changed
  refine (h₁.spares spares₁ (by decide) (by decide)).runFrameLoad i₃ (by decide) (by decide)
    ((kept _ (by change a.frame.toNat - 56 + 8 ≤ _; omega)).trans suspended.bytecode) ?_
  refine (h₁.spares spares₂ (by decide) (by decide)).runFrameLoad i₄ (by decide) (by decide)
    ((kept _ (by change a.frame.toNat - 48 + 8 ≤ _; omega)).trans framed.locals) ?_
  refine (h₁.spares spares₃ (by decide) (by decide)).runFrameLoad i₅ (by decide) (by decide)
    ((kept _ (by change a.frame.toNat - 40 + 8 ≤ _; omega)).trans framed.cache) ?_
  refine (h₁.spares spares₄ (by decide) (by decide)).runFrameLoad i₆ (by decide) (by decide)
    ((kept _ (by change a.frame.toNat - 24 + 8 ≤ _; omega)).trans framed.method) ?_
  refine next _ _ ⟨(spares₅.regs _ (by decide)).trans h.thread,
    (spares₅.regs _ (by decide)).trans h.frame, ?_, ?_, ?_, ?_, ?_⟩ spares₅ changed <;>
    simp +decide only [Cpu.reg_setReg, ↓reduceIte]

/-! ## Behind a call -/

/-- What the code behind a call reads: the cache entry of the call with its parameter words, and the
    operand words of the calling method. -/
structure Activation.Resumable (a : Activation) (bcp words : UInt64) (bytes index : Nat)
    (m : Guarded) : Prop where
  above : 0x1000 ≤ bcp.toNat
  below : bcp.toNat + 1 + bytes ≤ a.heap.toNat
  operand : load m.bytes (bcp.toNat + 1) bytes = index.toUInt64
  entry : a.entry index + 32 ≤ a.heap.toNat
  words : load m.bytes (a.entry index + 24) 8 &&& CacheRecord.parameterMask = words
  methodAbove : 0x1000 ≤ a.method.toNat
  methodBelow : a.method.toNat + 8 ≤ a.heap.toNat
  recordAbove : 0x1000 ≤ (load m.bytes a.method.toNat 8).toNat
  recordBelow : (load m.bytes a.method.toNat 8).toNat + 14 ≤ a.heap.toNat
  sp : a.top - ((load m.bytes ((load m.bytes a.method.toNat 8).toNat + 12) 2 + (2 + 2)) <<< 3) &&&
    -16 = a.sp

theorem Activation.Resumable.agrees {words : UInt64} {bytes index : Nat}
    (h : a.Resumable bcp words bytes index m) (cache : 0x20000 ≤ a.cache.toNat)
    (ha : m.Agrees m' 0x1000 a.heap.toNat) : a.Resumable bcp words bytes index m' := by
  have above := h.above
  have below := h.below
  have entry := h.entry
  have methodAbove := h.methodAbove
  have methodBelow := h.methodBelow
  have recordAbove := h.recordAbove
  have recordBelow := h.recordBelow
  have start : a.cache.toNat + 16 ≤ a.entry index := by
    rw [Activation.entry]
    omega
  have record := ha.load (i := a.method.toNat) (k := 8) methodAbove methodBelow
  exact {
    above, below, methodAbove, methodBelow
    operand := (ha.load (by omega) (by omega)).trans h.operand
    entry := h.entry
    words := by rw [ha.load (by omega) (by omega)]; exact h.words
    recordAbove := record ▸ recordAbove
    recordBelow := record ▸ recordBelow
    sp := by rw [record, ha.load (by omega) (by omega)]; exact h.sp }

/-- The stack pointer of the machine is to be there, below the operands that the record of the method
    has room for and a number of words more. -/
structure Activation.Measured (a : Activation) (extra sp : UInt64) (m : Guarded) : Prop where
  methodAbove : 0x1000 ≤ a.method.toNat
  methodBelow : a.method.toNat + 8 ≤ a.heap.toNat
  recordAbove : 0x1000 ≤ (load m.bytes a.method.toNat 8).toNat
  recordBelow : (load m.bytes a.method.toNat 8).toNat + 14 ≤ a.heap.toNat
  sp : a.top - ((load m.bytes ((load m.bytes a.method.toNat 8).toNat + 12) 2 + (2 + extra)) <<< 3) &&&
    -16 = sp

theorem Activation.Resumable.measured {words : UInt64} {bytes index : Nat}
    (h : a.Resumable bcp words bytes index m) : a.Measured 2 a.sp m :=
  ⟨h.methodAbove, h.methodBelow, h.recordAbove, h.recordBelow, h.sp⟩

theorem Activation.Measured.agrees {extra sp : UInt64} (h : a.Measured extra sp m)
    (ha : m.Agrees m' 0x1000 a.heap.toNat) : a.Measured extra sp m' := by
  have recordAbove := h.recordAbove
  have recordBelow := h.recordBelow
  have record := ha.load (i := a.method.toNat) (k := 8) h.methodAbove h.methodBelow
  exact {
    methodAbove := h.methodAbove
    methodBelow := h.methodBelow
    recordAbove := record ▸ recordAbove
    recordBelow := record ▸ recordBelow
    sp := by rw [record, ha.load (by omega) (by omega)]; exact h.sp }

namespace Activation.Placed

/-- A word below the heap is loaded. -/
theorem runLoadBelow (h : a.Placed l s c m) {r base : Register} {k w n : UInt64} {width : Width}
    (i : v.image.code.Fetches q (.load r (.base base k) width false)) (at' : c.reg base = n)
    (above : 0x1000 ≤ n.toNat) (below : n.toNat + k.toNat + width.bytes.toNat ≤ a.heap.toNat)
    (holds : load m.bytes (n.toNat + k.toNat) width.bytes.toNat = w)
    (next : Vm.Arrives P turns (v.moved (q + 4) (c.setReg r w) m)) :
    Vm.Arrives P (turns + 1) (v.moved q c m) := by
  have bound := a.heap.toNat_lt
  have heap := h.fits.heap
  have address : (n + k).toNat = n.toNat + k.toNat := toNat_add_of_lt (by omega)
  exact .loadAt at' i address (h.fits.clear.open (by omega) (by omega)) holds next

/-- The cache entry that the operand names. -/
theorem runLoadCacheEntry (h : a.Placed l s c m) {bytes index : Nat} (wide : bytes = 2 ∨ bytes = 4)
    (bytecode : c.reg .bytecode = bcp) (cache : c.reg .cache = a.cache) (above : 0x1000 ≤ bcp.toNat)
    (below : bcp.toNat + 1 + bytes ≤ a.heap.toNat)
    (operand : load m.bytes (bcp.toNat + 1) bytes = index.toUInt64)
    (entry : a.entry index + 32 ≤ a.heap.toNat)
    (lay : Lays ⟨v.image.code, place⟩ ctx inStub K S (loadCacheEntry .x1 .x2 1 bytes) q q' ())
    (next : ∀ n, n.toNat + 16 = a.entry index →
      Vm.Arrives P turns (v.moved q' ((c.setReg .x2 index.toUInt64).setReg .x1 n) m)) :
    Vm.Arrives P (turns + 2) (v.moved q c m) := by
  have heap := a.heap.toNat_lt
  have one : (1 : UInt64).toNat = 1 := rfl
  have shifted : (index.toUInt64 <<< (5 : UInt64)).toNat = 32 * index := by
    rw [Activation.entry] at entry
    exact toNat_shiftLeft (k := CacheRecord.entryShift) (by decide) (by change 32 * _ < _; omega)
  have located : (a.cache + index.toUInt64 <<< (5 : UInt64)).toNat + 16 = a.entry index := by
    rw [Activation.entry] at entry ⊢
    rw [toNat_add_of_lt (by omega), shifted]
    omega
  have add {c₁ : Cpu} {q₁ : UInt64} (same : c₁ = c.setReg .x2 index.toUInt64)
      (i : v.image.code.Fetches q₁ (.binary .add .x1 .cache (Register.x2.lsl CacheRecord.entryShift)))
      (behind : q' = q₁ + 4) : Vm.Arrives P (turns + 1) (v.moved q₁ c₁ m) := by
    subst same behind
    refine .binary i ?_
    change Vm.Arrives P _ (v.moved _ (Cpu.setReg _ .x1 (Cpu.reg _ .cache + Cpu.reg _ .x2 <<< 5)) m)
    rw [Cpu.reg_setReg_ne _ _ (by decide), Cpu.reg_setReg_self _ _ (by decide), cache]
    exact next _ located
  unfold loadCacheEntry at lay
  by_cases four : bytes = 4
  · subst four
    obtain ⟨i₁, lay⟩ := (lay.ite_pos rfl).emit_bind
    obtain ⟨i₂, done⟩ := lay.emit
    exact h.runLoadBelow i₁ bytecode above below operand (add rfl i₂ done)
  · obtain rfl : bytes = 2 := wide.resolve_right four
    obtain ⟨i₁, lay⟩ := (lay.ite_neg four).emit_bind
    obtain ⟨i₂, done⟩ := lay.emit
    exact h.runLoadBelow i₁ bytecode above below operand (add rfl i₂ done)

/-- The machine's stack pointer goes below the operands again. -/
theorem runRestoreSp (h : a.Placed l s c m) (framed : a.Framed m) {extra sp : UInt64}
    (method : c.reg .method = a.method) (measured : a.Measured extra sp m)
    (lay : Lays ⟨v.image.code, place⟩ ctx inStub K S (restoreSp extra) q q' ())
    (next : ∀ c', c.Spares c' [.scratch1, .scratch2, .sp] → c'.reg .sp = sp →
      Vm.Arrives P turns (v.moved q' c' m)) : Vm.Arrives P (turns + 6) (v.moved q c m) := by
  unfold restoreSp at lay
  obtain ⟨i₁, lay⟩ := lay.emit_bind
  obtain ⟨i₂, lay⟩ := lay.emit_bind
  obtain ⟨i₃, lay⟩ := lay.emit_bind
  obtain ⟨i₄, lay⟩ := lay.emit_bind
  obtain ⟨i₅, lay⟩ := lay.emit_bind
  obtain ⟨i₆, rfl⟩ := lay.emit
  obtain ⟨record, constMethod⟩ : ∃ record, load m.bytes a.method.toNat 8 = record := ⟨_, rfl⟩
  obtain ⟨maxStack, words⟩ : ∃ k, load m.bytes (record.toNat + 12) 2 = k := ⟨_, rfl⟩
  have recordAbove := constMethod ▸ measured.recordAbove
  have recordBelow := constMethod ▸ measured.recordBelow
  have below := measured.sp
  rw [constMethod, words] at below
  have spares₁ := (Cpu.Spares.refl c [.scratch1, .scratch2, .sp]).setReg (r := .scratch1) (by simp)
    record
  have spares₂ := spares₁.setReg (r := .scratch1) (by simp) maxStack
  have spares₃ := spares₂.setReg (r := .scratch1) (by simp) (maxStack + (2 + extra))
  have spares₄ := spares₃.setReg (r := .scratch2) (by simp) a.top
  have spares₅ := spares₄.setReg (r := .scratch1) (by simp) (a.top - (maxStack + (2 + extra)) <<< 3)
  have spares₆ := spares₅.setReg (r := .sp) (by simp) sp
  refine h.runLoadBelow i₁ method measured.methodAbove measured.methodBelow constMethod ?_
  refine (h.spares spares₁ (by decide) (by decide)).runLoadBelow i₂
    (Cpu.reg_setReg_self _ _ (by decide)) recordAbove recordBelow words (.binary i₃ ?_)
  rw [Cpu.reg_setReg_self _ _ (by decide)]
  refine (h.spares spares₃ (by decide) (by decide)).runFrameLoad i₄ (by decide) (by decide)
    framed.top (.binary i₅ (.binary i₆ ?_))
  have room : Binary.apply
      (((((c.setReg .scratch1 record).setReg .scratch1 maxStack).setReg .scratch1
        (maxStack + (2 + extra))).setReg .scratch2 a.top).reg .scratch2)
      (((((c.setReg .scratch1 record).setReg .scratch1 maxStack).setReg .scratch1
        (maxStack + (2 + extra))).setReg .scratch2 a.top).operand (Register.scratch1.lsl 3)) .sub =
        a.top - (maxStack + (2 + extra)) <<< 3 := by
    change Cpu.reg _ .scratch2 - Cpu.reg _ .scratch1 <<< 3 = _
    rw [Cpu.reg_setReg_self _ _ (by decide), Cpu.reg_setReg_ne _ _ (by decide),
      Cpu.reg_setReg_self _ _ (by decide)]
  rw [room]
  change Vm.Arrives P _ (v.moved _ (Cpu.setReg _ .sp (Cpu.reg _ .scratch1 &&& -16)) m)
  rw [Cpu.reg_setReg_self _ _ (by decide), below]
  exact next _ spares₆ (Cpu.reg_setReg_self _ _ (by decide))

/-- The operands end above the arguments of the call, whose words the cache entry tells. -/
theorem runDropArguments (h : a.Placed l s c m) {words : UInt64} {bytes index : Nat}
    (regained : a.Regained bcp saved c) (cacheAbove : 0x20000 ≤ a.cache.toNat)
    (resumable : a.Resumable bcp words bytes index m) (wide : bytes = 2 ∨ bytes = 4)
    (arguments : saved + words <<< 3 = p)
    (lay : Lays ⟨v.image.code, place⟩ ctx inStub K S (dropArguments bytes) q q' ())
    (next : ∀ c', a.Regained bcp p c' → c.Spares c' [.x1, .x2, .operands] →
      Vm.Arrives P turns (v.moved q' c' m)) : Vm.Arrives P (turns + 5) (v.moved q c m) := by
  unfold dropArguments at lay
  obtain ⟨⟨⟩, r, located, lay⟩ := lay.split
  obtain ⟨i₁, lay⟩ := lay.emit_bind
  obtain ⟨i₂, lay⟩ := lay.emit_bind
  obtain ⟨i₃, rfl⟩ := lay.emit
  refine h.runLoadCacheEntry wide regained.bytecode regained.cache resumable.above
    resumable.below resumable.operand resumable.entry located fun n at' => ?_
  have start : a.cache.toNat + 16 ≤ a.entry index := by
    rw [Activation.entry]
    omega
  have below := resumable.entry
  obtain ⟨flags, flagsAt⟩ : ∃ flags, load m.bytes (a.entry index + 24) 8 = flags := ⟨_, rfl⟩
  have masked := resumable.words
  rw [flagsAt] at masked
  have spares₂ := ((Cpu.Spares.refl c [.x1, .x2, .operands]).setReg (r := .x2) (by simp)
    index.toUInt64).setReg (r := .x1) (by simp) n
  have spares₃ := (spares₂.setReg (r := .x1) (by simp) flags).setReg (r := .x1) (by simp) words
  have spares₄ := spares₃.setReg (r := .operands) (by simp) p
  refine (h.spares spares₂ (by decide) (by decide)).runLoadBelow i₁
    (Cpu.reg_setReg_self _ _ (by decide)) (by omega) (w := flags) ?_ ?_ (.binary i₂ ?_)
  · change n.toNat + 40 + 8 ≤ _
    omega
  · rw [← flagsAt]
    change load m.bytes (n.toNat + 40) 8 = _
    rw [show n.toNat + 40 = a.entry index + 24 by omega]
  rw [Cpu.reg_setReg_self _ _ (by decide)]
  change Vm.Arrives P _ (v.moved _ (Cpu.setReg _ .x1 (flags &&& CacheRecord.parameterMask)) m)
  rw [masked]
  refine .binary i₃ ?_
  change Vm.Arrives P _ (v.moved _ (Cpu.setReg _ .operands (Cpu.reg _ .operands +
    Cpu.reg _ .x1 <<< 3)) m)
  have saved' : ((((c.setReg .x2 index.toUInt64).setReg .x1 n).setReg .x1 flags).setReg .x1
      words).reg .operands = saved := by
    simp +decide only [Cpu.reg_setReg, regained.operands, ↓reduceIte]
  rw [saved', Cpu.reg_setReg_self _ _ (by decide), arguments]
  have dropped := Cpu.reg_setReg_self ((((c.setReg .x2 index.toUInt64).setReg .x1 n).setReg .x1
    flags).setReg .x1 words) (r := .operands) p (by decide)
  generalize Cpu.setReg _ .operands p = c₂ at spares₄ dropped ⊢
  exact next c₂ {
    thread := (spares₄.regs _ (by decide)).trans regained.thread
    frame := (spares₄.regs _ (by decide)).trans regained.frame
    operands := dropped
    bytecode := (spares₄.regs _ (by decide)).trans regained.bytecode
    locals := (spares₄.regs _ (by decide)).trans regained.locals
    cache := (spares₄.regs _ (by decide)).trans regained.cache
    method := (spares₄.regs _ (by decide)).trans regained.method } spares₄

/-- Behind a call the caller has its registers again, without the arguments of the call. -/
theorem runReturnEntry {c₀ : Cpu} {words step : UInt64} {bytes index : Nat} {op : Bytecode.Operation}
    {entry : UInt64} (thread : c.reg .thread = a.thread) (frame : c.reg .frame = a.frame)
    (caller : Stands a b bcp p x v c₀ m) (suspended : a.Suspended bcp saved m)
    (resumable : a.Resumable bcp words bytes index m) (wide : bytes = 2 ∨ bytes = 4)
    (arguments : saved + words <<< 3 = p)
    (lay : Lays ⟨v.image.code, place⟩ ctx inStub K S (returnEntry tos step bytes) q q' entry)
    (hm : op ∈ Bytecode.decode b.code) (there : bcp + step = a.code + op.bci.toUInt64)
    (next : ∀ c' m', Stands a b (bcp + step) p x v c' m' → c'.reg .x0 = c.reg .x0 →
      c'.float .v0 = c.float .v0 →
      Vm.Arrives P turns (v.moved (v.image.normalTable.get tos op.opcode.byte) c' m')) :
    entry = q ∧ Vm.Arrives P (turns + 22) (v.moved q c m) := by
  rw [returnEntry_eq] at lay
  replace lay := lay.pc_bind
  obtain ⟨⟨⟩, r₁, restored, lay⟩ := lay.split
  obtain ⟨⟨⟩, r₂, dropped, lay⟩ := lay.split
  obtain ⟨⟨⟩, r₃, pointed, lay⟩ := lay.split
  obtain ⟨i₄, lay⟩ := Lays.emit_bind (i := .movImm .dispatch Place.activeTable) lay
  obtain ⟨⟨⟩, r₄, dispatched, lay⟩ := lay.split
  obtain ⟨rfl, rfl⟩ := lay.ended
  refine ⟨rfl, ?_⟩
  have fits := caller.fits
  have records := fits.records
  have heap := fits.heap
  have low := fits.thread
  have operands := fits.operands
  have top := fits.top
  have cacheAbove := caller.loaded.cacheAbove
  have placed : a.Placed b.maxLocals b.maxStack c m := ⟨thread, frame, fits⟩
  refine placed.runRestoreCaller caller.framed suspended restored
    fun c₁ m₁ regained₁ spares₁ changed₁ => ?_
  have kept : m.Agrees m₁ 0x1000 a.heap.toNat := changed₁.agrees (.inl (by omega))
  have waits : Stands a b bcp p x v c₀ m₁ := caller.agreeing changed₁.size changed₁.guards (by
    rw [(changed₁.agrees (s := a.thread.toNat + 48) (t := a.thread.toNat + 52)
      (.inl (by omega))).load (Nat.le_refl _) (Nat.le_refl _)]
    exact caller.idle.pop) fun j hj => changed₁.other j (by omega)
  have resumable₁ := resumable.agrees cacheAbove kept
  have placed₁ : a.Placed b.maxLocals b.maxStack c₁ m₁ :=
    ⟨regained₁.thread, regained₁.frame, waits.fits⟩
  refine placed₁.runDropArguments regained₁ cacheAbove resumable₁ wide arguments dropped
    fun c₂ regained₂ spares₂ => ?_
  refine (placed₁.spares spares₂ (by decide) (by decide)).runRestoreSp waits.framed
    regained₂.method resumable₁.measured pointed fun c₃ spares₃ sp => .movImm i₄ ?_
  have spared : Cpu.Spares _ c₃ [.scratch1, .scratch2, .sp, .dispatch] := spares₃.mono (by decide)
  have spares₄ := spared.setReg (r := .dispatch) (by simp) Place.activeTable
  have registers := (regained₂.spares spares₄ (by decide)).registers
    (Cpu.reg_setReg_self _ _ (by decide)) ((Cpu.reg_setReg_ne _ _ (by decide)).trans sp)
  refine (waits.withRegisters registers).runDispatchTo dispatched hm there
    fun c₅ h same floats => next c₅ m₁ h ?_ ?_
  · rw [same _ (by decide) (by decide) (by decide), spares₄.regs _ (by decide),
      spares₂.regs _ (by decide), spares₁.regs _ (by decide)]
  · rw [floats, spares₄.floats, spares₂.floats, spares₁.floats]

end Activation.Placed
end TemplateVm
