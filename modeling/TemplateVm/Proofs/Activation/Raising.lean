import TemplateVm.Proofs.Activation.Places
import TemplateVm.Proofs.Activation.Returning

set_option autoImplicit false
set_option synthInstance.maxSize 100000

/-!
# Where an exception goes on

An activation looks for a handler with the bytecode that is in its frame. The code that throws an
exception puts its own bytecode there first, so that it is looked up where it was thrown.
-/
namespace TemplateVm

open Memory (Guarded load)
open Guest Emit

/-! ## The code -/

namespace Emit

/-- An exception from a callee finds the registers of the activation, with the bytecode that is in its
    frame. -/
def regaining : Emit Unit := do
  str Register.zero (frameSlot Frame.lastSp)
  restoreBytecode
  restoreLocals
  restoreCache
  loadDispatch

/-- The runtime is asked where the exception in the first register goes on. -/
def searching : Emit Unit := do
  loadMethod Register.method
  Emit.verifyReference Register.x0
  mov Register.x1 Register.x0
  emptyOperands
  callVm (some Register.x3) .handlerForException [Register.x1]
  restoreSp 4
  pushWord Register.x3
  br Register.x0

theorem handling_eq : ExceptionEntries.handling = (do
    let rethrow ← pc
    regaining
    let throwException ← pc
    searching
    let removeActivation ← pc
    unwinding
    pure (rethrow, throwException, removeActivation)) := by
  simp only [ExceptionEntries.handling, regaining, searching, unwinding, forwarding, bind_assoc]

end Emit

section
variable {ctx : CodeContext} {K S : List CodeLabel} {inStub : Bool}

instance Orderly.regaining : Orderly ctx inStub K S S 5 regaining := by
  unfold Emit.regaining
  exact upto inferInstance (by decide)

instance Orderly.searching : Orderly ctx inStub K S S 60 searching := by
  unfold Emit.searching
  exact upto inferInstance (by decide)

instance Orderly.unwinding : Orderly ctx inStub K S S 600 unwinding := by
  unfold Emit.unwinding
  exact upto inferInstance (by decide)

end

/-! ## The search -/

namespace Vm

variable {v : Vm} {q : UInt64} {c : Cpu} {m : Guarded} {steps : UInt64}
  {watched : List (UInt64 × UInt64)} {e bcp : UInt64} {f : Frame} {id : MethodId}
  {thrown : ClassId}

theorem classOf_ok (ok : m.Open (e + Memory.ObjectShape.classRecord) 8)
    (known : v.world.classes.classAt?
      (load m.bytes (e + Memory.ObjectShape.classRecord).toNat 8) = some thrown) :
    onWorld (World.classOf e) ((v.moved q c m).counted steps watched) =
      .ok thrown ((v.moved q c m).counted steps watched) := by
  have found : World.classOf e (v.moved q c m).world = .ok thrown (v.moved q c m).world := by
    unfold World.classOf
    have read : World.onMemory (Guarded.readA (e + Memory.ObjectShape.classRecord) 8)
        (v.moved q c m).world = .ok (load m.bytes (e + Memory.ObjectShape.classRecord).toNat 8)
          (v.moved q c m).world := by
      simp only [World.onMemory, World.onStore, Memory.Store.onMemory, zoom, moved, ok.readA]
      rfl
    refine (bind_ok read).trans ((bind_ok (m := (get : World.Action World)) rfl).trans ?_)
    have table : (v.moved q c m).world.classes = v.world.classes := rfl
    simp only [table, known]
    rfl
  have at' : ((v.moved q c m).counted steps watched).world = (v.moved q c m).world := rfl
  simp only [onWorld, zoom, at', found]
  rfl

/-- The exception is in the block of the thread, where none is on its way any more. -/
def handed (thread e : UInt64) (m : Guarded) : Guarded :=
  (m.put (thread + ThreadBlock.pendingException) 8 0).put (thread + ThreadBlock.vmResult) 8 e

/-- What the search for a handler has found out before it changes anything. -/
structure Seeks (v : Vm) (q : UInt64) (c : Cpu) (m : Guarded) (f : Frame) (id : MethodId)
    (bcp e : UInt64) (thrown : ClassId) : Prop where
  frame : ∀ steps watched, lastFrame ((v.moved q c m).counted steps watched) =
    .ok f ((v.moved q c m).counted steps watched)
  method : ∀ steps watched, methodOf f ((v.moved q c m).counted steps watched) =
    .ok id ((v.moved q c m).counted steps watched)
  bytecodeOk : m.Open (f.fp + Frame.bytecode) 8
  bytecode : load m.bytes (f.fp + Frame.bytecode).toNat 8 = bcp
  classOk : m.Open (e + Memory.ObjectShape.classRecord) 8
  known : v.world.classes.classAt?
    (load m.bytes (e + Memory.ObjectShape.classRecord).toNat 8) = some thrown
  pendingOk : m.Open (v.map.thread + ThreadBlock.pendingException) 8
  resultOk : m.Open (v.map.thread + ThreadBlock.vmResult) 8

/-- The search goes by the bytecode that is in the frame. -/
theorem Seeks.search (h : v.Seeks q c m f id bcp e thrown) :
    handlerForException e ((v.moved q c m).counted steps watched) =
      (match handler? v.world.classes (v.world.classes.method id) bcp thrown with
      | some handler => onMemory do
        f.setBytecode handler
        let byte ← Guarded.readA handler 1
        Guarded.readA (Place.dispatchSlot Place.activeTable .none byte.toUInt8) 8
      | none => return (← get).image.exceptions.removeActivation)
        ((v.moved q c (handed v.map.thread e m)).counted steps watched) := by
  have read : onMemory (f.read Frame.bytecode) ((v.moved q c m).counted steps watched) =
      .ok bcp ((v.moved q c m).counted steps watched) :=
    onMemory_ok (h.bytecodeOk.readA.trans (by rw [← h.bytecode]; rfl))
  refine (bind_ok (h.frame steps watched)).trans ?_
  refine (bind_ok (h.method steps watched)).trans ?_
  refine (bind_ok read).trans ?_
  refine (bind_ok (classOf_ok h.classOk h.known)).trans ?_
  refine (bind_ok (m := classes) rfl).trans ?_
  refine (bind_ok (onThread_ok h.pendingOk.write)).trans ?_
  exact bind_ok (onThread_ok h.resultOk.put.write)

/-- Without a handler for the bytecode the exception leaves the activation. -/
theorem Seeks.uncaught (h : v.Seeks q c m f id bcp e thrown)
    (none : handler? v.world.classes (v.world.classes.method id) bcp thrown = none) :
    handlerForException e ((v.moved q c m).counted steps watched) =
      .ok v.image.exceptions.removeActivation
        ((v.moved q c (handed v.map.thread e m)).counted steps watched) := by
  rw [h.search, none]
  rfl

/-- The activation goes on with the handler. -/
theorem Seeks.caught (h : v.Seeks q c m f id bcp e thrown) {handler entry : UInt64} {byte : UInt8}
    {m' : Guarded}
    (some : handler? v.world.classes (v.world.classes.method id) bcp thrown = some handler)
    (put : (handed v.map.thread e m).put (f.fp + Frame.bytecode) 8 handler = m')
    (codeOk : m'.Open handler 1) (code : load m'.bytes handler.toNat 1 = byte.toUInt64)
    (slotOk : m'.Open (Place.dispatchSlot Place.activeTable .none byte) 8)
    (slot : load m'.bytes (Place.dispatchSlot Place.activeTable .none byte).toNat 8 = entry) :
    handlerForException e ((v.moved q c m).counted steps watched) =
      .ok entry ((v.moved q c m').counted steps watched) := by
  rw [h.search, some]
  have written : f.setBytecode handler (handed v.map.thread e m) = .ok () m' :=
    put ▸ h.bytecodeOk.put.put.write
  have opcode : Guarded.readA handler 1 m' = .ok byte.toUInt64 m' :=
    codeOk.readA.trans (by rw [← code]; rfl)
  refine onMemory_ok ((bind_ok written).trans ((bind_ok opcode).trans ?_))
  rw [UInt8.toUInt8_toUInt64, slotOk.readA, ← slot]
  rfl

end Vm

/-- Where an exception of the class goes on that is thrown at the bytecode, and with which bytecode:
    with the handler that covers it, or on the way out of the activation. -/
inductive Activation.GoesOn (a : Activation) (b : Program) (i : Image) (id : MethodId) (bcp : UInt64)
    (thrown : ClassId) : UInt64 → UInt64 → Prop
  | caught {op : Bytecode.Operation} {handler : UInt64}
    (found : Vm.handler? b.classes (b.classes.method id) bcp thrown = some handler)
    (operation : op ∈ Bytecode.decode b.code) (there : handler = a.code + op.bci.toUInt64) :
    GoesOn a b i id bcp thrown (i.normalTable.get .none op.opcode.byte) handler
  | uncaught (none : Vm.handler? b.classes (b.classes.method id) bcp thrown = none) :
    GoesOn a b i id bcp thrown i.exceptions.removeActivation bcp

/-- What is known of an exception and of the method that it is thrown in: the class is found by the
    object, the method by its record, and the handlers of the method are operations of it. -/
structure Activation.Throws (a : Activation) (b : Program) (h : Heap) (id : MethodId) (e : UInt64)
    (thrown : ClassId) : Prop where
  method : b.classes.methodAt? a.method = some id
  object : ∃ body, h e = some ⟨thrown, body⟩
  known : b.classes.classAt? (b.classes.get thrown).address = some thrown
  handlers : ∀ bcp handler, Vm.handler? b.classes (b.classes.method id) bcp thrown = some handler →
    ∃ op ∈ Bytecode.decode b.code, handler = a.code + op.bci.toUInt64

namespace Stands

variable {P : Vm → Prop} {turns : Nat} {v : Vm} {q q' : UInt64} {c : Cpu} {m m' : Guarded}
  {a : Activation} {b : Program} {bcp p e : UInt64} {x : Contents} {place : CodeLabel → UInt64}
  {ctx : CodeContext} {inStub : Bool} {K S : List CodeLabel} {id : MethodId} {thrown : ClassId}

/-- A write to the thread's block, or to the frame's word for the stack pointer of a callee. -/
theorem apart {lo hi : Nat} (h : Stands a b bcp p x v c m) (hc : m.Changed m' lo hi)
    (where' : a.thread.toNat ≤ lo ∧ hi ≤ a.thread.toNat + 0x1000 ∨
      a.frame.toNat - 16 ≤ lo ∧ hi ≤ a.frame.toNat) (idle : a.Idle m') :
    Stands a b bcp p x v c m' := by
  have thread := h.fits.thread
  have operands := h.fits.operands
  have depth := h.top
  have bounded := h.bounded
  exact h.changed hc idle (by omega)

/-- No exception is on its way either when one has been handed over. -/
theorem handed (h : Stands a b bcp p x v c m) (e : UInt64) :
    Stands a b bcp p x v c (Vm.handed a.thread e m) ∧
      load (Vm.handed a.thread e m).bytes (a.thread.toNat + 8) 8 = e ∧
      m.Changed (Vm.handed a.thread e m) a.thread.toNat (a.thread.toNat + 16) := by
  have eight : (8 : UInt64).toNat = 8 := rfl
  obtain ⟨pendingAt, pendingOk⟩ := h.fits.threadField (k := ThreadBlock.pendingException) (w := 8)
    (by decide)
  change _ = a.thread.toNat + 0 at pendingAt
  have cleared := Guarded.changed_put m (a.thread + ThreadBlock.pendingException) 8 0
  have idle : a.Idle (m.put (a.thread + ThreadBlock.pendingException) 8 0) := by
    refine ⟨?_, ?_⟩
    · rw [show a.thread.toNat = (a.thread + ThreadBlock.pendingException).toNat from pendingAt.symm]
      exact Guarded.load_put pendingOk
    · rw [Guarded.load_put_of_disjoint (by omega)]
      exact h.idle.pop
  have h₁ := h.apart cleared (.inl (by omega)) idle
  obtain ⟨resultAt, resultOk, h₂⟩ := h₁.threadField (k := ThreadBlock.vmResult) (n := 8) (by decide)
    (by decide) e
  change _ = a.thread.toNat + 8 at resultAt
  refine ⟨h₂, ?_, (cleared.mono (by omega) (by omega)).put (by omega) (by omega)⟩
  rw [← resultAt]
  exact Guarded.load_put resultOk

/-- The frame keeps another bytecode. -/
theorem putBytecode (h : Stands a b bcp p x v c m) (bcp' : UInt64) :
    Stands a b bcp p x v c (m.put (a.frame + -56) 8 bcp') ∧
      m.Changed (m.put (a.frame + -56) 8 bcp') (a.frame.toNat - 56) (a.frame.toNat - 48) ∧
      load (m.put (a.frame + -56) 8 bcp').bytes (a.frame.toNat - 56) 8 = bcp' := by
  have eight : (8 : UInt64).toNat = 8 := rfl
  have room := h.fits.thread
  have operands := h.fits.operands
  have top := h.fits.top
  obtain ⟨slotAt, slotOk⟩ := h.fits.frameSlot (k := 56) (by decide) (by decide)
  change (a.frame + -56).toNat = a.frame.toNat - 56 at slotAt
  have changed := (Guarded.changed_put m (a.frame + -56) 8 bcp').mono (s := a.frame.toNat - 56)
    (t := a.frame.toNat - 48) (by omega) (by omega)
  exact ⟨h.outside changed (.inr (.inr (.inr (by omega)))), changed,
    slotAt ▸ Guarded.load_put slotOk⟩

/-- The runtime finds what it asks for: the frame, its method and the class of the exception. -/
theorem seeks (h : Stands a b bcp p x v c m) (throws : a.Throws b x.heap id e thrown)
    (bytecode : load m.bytes (a.frame.toNat - 56) 8 = bcp)
    (sp : load m.bytes (a.thread.toNat + 16) 8 = p)
    (fp : load m.bytes (a.thread.toNat + 24) 8 = a.frame) :
    v.Seeks q c m ⟨a.frame⟩ id bcp e thrown := by
  have own := h.inhabits.thread
  obtain ⟨id', known, method⟩ := h.methodOf
  obtain rfl : id' = id := Option.some.inj (known.symm.trans throws.method)
  obtain ⟨body, object⟩ := throws.object
  obtain ⟨classOk, found⟩ := h.classAt object throws.known
  obtain ⟨bytecodeAt, bytecodeOk⟩ := h.fits.frameSlot (k := 56) (by decide) (by decide)
  exact {
    frame := h.lastFrame sp fp _
    method := method _
    bytecodeOk
    bytecode := (congrArg (load m.bytes · 8) bytecodeAt).trans bytecode
    classOk
    known := found
    pendingOk := own ▸ (h.fits.threadField (k := ThreadBlock.pendingException) (w := 8)
      (by decide)).2
    resultOk := own ▸ (h.fits.threadField (k := ThreadBlock.vmResult) (w := 8) (by decide)).2 }

/-- The activation is told where the exception goes on. -/
theorem runAnswered {m₂ : Guarded} {target : UInt64} (h : Stands a b bcp p x v c m₂)
    (ok : m.Open (a.thread + ThreadBlock.threadState) 4)
    (found : ∀ steps watched, Vm.handlerForException (c.reg .x1)
      ((v.moved Service.handlerForException.address c
        (Vm.threadState a.thread .inRuntime m)).counted steps watched) =
      .ok target ((v.moved Service.handlerForException.address c m₂).counted steps watched))
    (next : ∀ m', Stands a b bcp p x v (c.setReg .x0 target) m' →
      m₂.Changed m' (a.thread.toNat + 40) (a.thread.toNat + 44) →
      Vm.Arrives P turns (v.moved (c.reg .link) (c.setReg .x0 target) m')) :
    Vm.Arrives P (turns + 1) (v.moved Service.handlerForException.address c m) := by
  have own := h.inhabits.thread
  obtain ⟨h₃, ok₂, changed⟩ := h.inState .inGuest
  have performed (steps : UInt64) (watched : List (UInt64 × UInt64)) :
      Vm.perform .handlerForException ((v.moved Service.handlerForException.address c
        (Vm.threadState a.thread .inRuntime m)).counted steps watched) =
      .ok () ((v.moved Service.handlerForException.address (c.setReg .x0 target) m₂).counted steps
        watched) :=
    (Vm.bind_ok (m := Vm.reg .x0) rfl).trans <| (Vm.bind_ok (m := Vm.reg .x1) rfl).trans <|
      (Vm.bind_ok (m := Vm.reg .x2) rfl).trans <|
        (Vm.bind_ok (found steps watched)).trans (Vm.setReg_ok steps watched)
  rw [← own] at performed ok ok₂
  refine .guestService rfl ok performed ok₂ ⟨fun quiet => quiet, rfl, rfl⟩ ?_
  rw [own, Cpu.reg_setReg_ne _ _ (by decide)]
  exact next _ (h₃.setReg .x0 target rfl) changed

/-- The runtime looks for a handler with the bytecode that is in the frame. The frame gets the
    handler, and the thread's block the exception. -/
theorem runSeek (h : Stands a b bcp p x v c m) (throws : a.Throws b x.heap id e thrown)
    (asked : c.reg .x1 = e) (bytecode : load m.bytes (a.frame.toNat - 56) 8 = bcp)
    (sp : load m.bytes (a.thread.toNat + 16) 8 = p)
    (fp : load m.bytes (a.thread.toNat + 24) 8 = a.frame)
    (next : ∀ target bcp' m', a.GoesOn b v.image id bcp thrown target bcp' →
      Stands a b bcp p x v (c.setReg .x0 target) m' →
      load m'.bytes (a.frame.toNat - 56) 8 = bcp' → load m'.bytes (a.thread.toNat + 8) 8 = e →
      m.Agrees m' 0 a.thread.toNat →
      Vm.Arrives P turns (v.moved (c.reg .link) (c.setReg .x0 target) m')) :
    Vm.Arrives P (turns + 1) (v.moved Service.handlerForException.address c m) := by
  have own := h.inhabits.thread
  have table := h.inhabits.classes
  have room := h.fits.thread
  have operands := h.fits.operands
  have top := h.fits.top
  have bounds := h.bounds
  -- the thread is in the runtime while the handler is looked for
  obtain ⟨h₁, ok, changed₁⟩ := h.inState .inRuntime
  have kept {k : Nat} (below : k + 8 ≤ a.thread.toNat + 40 ∨ a.thread.toNat + 44 ≤ k) :
      load (Vm.threadState a.thread .inRuntime m).bytes k 8 = load m.bytes k 8 :=
    (changed₁.agrees (s := k) (t := k + 8) (by omega)).load (Nat.le_refl _) (Nat.le_refl _)
  have seeks := h₁.seeks (q := Service.handlerForException.address) throws
    ((kept (by omega)).trans bytecode) ((kept (by omega)).trans sp) ((kept (by omega)).trans fp)
  obtain ⟨h₂, result, changed₂⟩ := h₁.handed e
  have saved₂ : load (Vm.handed a.thread e (Vm.threadState a.thread .inRuntime m)).bytes
      (a.frame.toNat - 56) 8 = bcp := by
    rw [(changed₂.agrees (s := a.frame.toNat - 56) (t := a.frame.toNat - 48) (by omega)).load
      (Nat.le_refl _) (by omega)]
    exact (kept (by omega)).trans bytecode
  -- the words of the frame and of the thread's block outlast its return
  have back {target bcp' : UInt64} {m₂ m' : Guarded}
      (goes : a.GoesOn b v.image id bcp thrown target bcp')
      (saved : load m₂.bytes (a.frame.toNat - 56) 8 = bcp')
      (result : load m₂.bytes (a.thread.toNat + 8) 8 = e)
      (records : (Vm.threadState a.thread .inRuntime m).Agrees m₂ 0 a.thread.toNat)
      (h' : Stands a b bcp p x v (c.setReg .x0 target) m')
      (changed : m₂.Changed m' (a.thread.toNat + 40) (a.thread.toNat + 44)) :
      Vm.Arrives P turns (v.moved (c.reg .link) (c.setReg .x0 target) m') := by
    refine next target bcp' m' goes h' ?_ ?_
      (((changed₁.agrees (by omega)).trans records).trans (changed.agrees (by omega)))
    · rw [(changed.agrees (s := a.frame.toNat - 56) (t := a.frame.toNat - 48) (by omega)).load
        (Nat.le_refl _) (by omega)]
      exact saved
    · rw [(changed.agrees (s := a.thread.toNat + 8) (t := a.thread.toNat + 16) (by omega)).load
        (Nat.le_refl _) (by omega)]
      exact result
  cases search : Vm.handler? b.classes (b.classes.method id) bcp thrown with
  | none =>
    refine h₂.runAnswered ok (fun steps watched => ?_) fun m' =>
      back (.uncaught search) saved₂ result (changed₂.agrees (by omega))
    rw [asked, ← own]
    exact (own ▸ seeks).uncaught (by rw [table]; exact search)
  | some handler =>
    obtain ⟨op, operation, there⟩ := throws.handlers bcp handler search
    obtain ⟨h₃, changed₃, moved⟩ := h₂.putBytecode handler
    generalize hm₃ : Guarded.put _ (a.frame + -56) 8 handler = m₃ at h₃ changed₃ moved
    obtain ⟨bytes, fetched⟩ := (h₃.setBytecode handler).fetched operation there
    have above := fetched.above
    have below := fetched.below
    have length := fetched.length
    have records := h.fits.records
    refine h₃.runAnswered ok (fun steps watched => ?_) fun m' =>
      back (.caught search operation there) moved ?_
        ((changed₂.agrees (by omega)).trans (changed₃.agrees (by omega)))
    · have slot := Activation.dispatchSlot_toNat .none op.opcode.byte
      have byte := op.opcode.byte.toNat_lt
      have first : TopOfStack.none.index = 9 := rfl
      rw [asked]
      refine seeks.caught (by rw [table]; exact search) (by rw [own]; exact hm₃)
        (h₃.open_below (by omega) ?_) fetched.opcode (h₃.open_below (by omega) ?_)
        (h₃.loaded.table ..)
      · change handler.toNat + 1 ≤ _
        omega
      · change _ + 8 ≤ _
        omega
    · rw [(changed₃.agrees (s := a.thread.toNat + 8) (t := a.thread.toNat + 16) (by omega)).load
        (Nat.le_refl _) (by omega)]
      exact result

/-- The operands are given up. -/
theorem runEmptyOperands (h : Stands a b bcp p x v c m)
    (lay : Lays ⟨v.image.code, place⟩ ctx inStub K S emptyOperands q q' ())
    (next : ∀ m', Stands a b bcp a.top { x with stack := [] } v (c.setReg .operands a.top) m' →
      m.Changed m' (a.frame.toNat - 16) (a.frame.toNat - 8) →
      Vm.Arrives P turns (v.moved q' (c.setReg .operands a.top) m')) :
    Vm.Arrives P (turns + 2) (v.moved q c m) := by
  unfold emptyOperands at lay
  obtain ⟨i₁, lay⟩ := lay.emit_bind
  obtain ⟨i₂, rfl⟩ := lay.emit
  have top := h.fits.top
  have room := h.fits.thread
  have operands := h.fits.operands
  have placed := (Activation.Placed.of_stands h).spares
    ((Cpu.Spares.refl c [.operands]).setReg (r := .operands) (by simp) a.top) (by decide) (by decide)
  refine h.runFrameLoad i₁ (by decide) (by decide) h.framed.top <|
    placed.runFrameStore i₂ (by decide) (by decide) fun changed => ?_
  generalize Guarded.put _ _ 8 _ = m₁ at changed ⊢
  change m.Changed m₁ (a.frame.toNat - 16) (a.frame.toNat - 16 + 8) at changed
  rw [show a.frame.toNat - 16 + 8 = a.frame.toNat - 8 by omega] at changed
  have h₁ := h.apart changed (.inr (by omega))
    (h.idle.agrees (changed.agrees (by omega)) (changed.agrees (by omega)))
  exact next _ { h₁ with
    registers := h₁.registers.setOperands a.top
    stack := trivial
    top := rfl
    bounded := Nat.zero_le _ } changed

/-- The exception is the only operand where the activation goes on. -/
theorem runGoOn {sp target : UInt64}
    (h : Stands a b bcp a.top { x with stack := [] } v c m) (method : c.reg .method = a.method)
    (value : c.reg .x3 = e) (there : c.reg .x0 = target) (room : 0 < b.maxStack)
    (measured : a.Measured 4 sp m)
    (lay : Lays ⟨v.image.code, place⟩ ctx inStub K S (do
      restoreSp 4
      pushWord Register.x3
      br Register.x0) q q' ())
    (next : ∀ c' m', Stands { a with sp } b bcp (a.top + -8) { x with stack := [.object e] } v c' m' →
      Vm.Arrives P turns (v.moved target c' m')) : Vm.Arrives P (turns + 8) (v.moved q c m) := by
  obtain ⟨⟨⟩, r, restored, lay⟩ := lay.split
  obtain ⟨i₁, lay⟩ := Lays.emit_bind (i := .store .x3 (.pre .operands (-8)) .double) lay
  obtain ⟨i₂, rfl⟩ := lay.emit
  refine (Activation.Placed.of_stands h).runRestoreSp h.framed method measured restored
    fun c₁ spares pointer => ?_
  have h₁ : Stands { a with sp } b bcp a.top { x with stack := [] } v c₁ m := by
    have moved := h.moveSp sp
    refine { moved with registers := moved.registers.congr fun r fixed => ?_ }
    by_cases own : r = .sp
    · rw [own, pointer, Cpu.reg_setReg_self _ _ (by decide)]
    · rw [Cpu.reg_setReg_ne _ _ own]
      refine spares.regs r fun mem => ?_
      simp only [List.mem_cons, List.not_mem_nil, or_false] at mem
      rcases mem with rfl | rfl | rfl
      · exact absurd fixed (by decide)
      · exact absurd fixed (by decide)
      · exact own rfl
  have held : c₁.reg .x3 = e := (spares.regs _ (by decide)).trans value
  refine h₁.runStore (w := .object e) i₁ rfl (by decide)
    (fun k ok => held ▸ Value.object_in_put ok _) (by change 0 + 1 ≤ _; omega)
    fun m₂ h₂ _ => .branchTo i₂ ?_
  rw [Cpu.reg_setReg_ne _ _ (by decide), spares.regs _ (by decide), there]
  exact next _ m₂ h₂

/-- Code that throws an exception has a handler looked for with its own bytecode. The activation goes
    on there with the exception for its only operand, or leaves with it. -/
theorem runThrow (h : Stands a b bcp p x v c m) (throws : a.Throws b x.heap id e thrown)
    (held : c.reg .x0 = e) (roomy : a.Roomy ctx.settings b.maxStack) (room : 0 < b.maxStack)
    {sp : UInt64} (measured : a.Measured 4 sp m)
    (lay : Lays ⟨v.image.code, place⟩ ctx inStub K S searching q q' ())
    (next : ∀ target bcp' c' m', a.GoesOn b v.image id bcp thrown target bcp' →
      Stands { a with sp } b bcp' (a.top + -8) { x with stack := [.object e] } v c' m' →
      Vm.Arrives P turns (v.moved target c' m')) : Vm.Arrives P (turns + 41) (v.moved q c m) := by
  unfold searching at lay
  obtain ⟨i₁, lay⟩ := lay.emit_bind
  obtain ⟨⟨⟩, q₁, verified, lay⟩ := lay.split
  obtain ⟨i₂, lay⟩ := lay.emit_bind
  obtain ⟨⟨⟩, q₂, emptied, lay⟩ := lay.split
  obtain ⟨⟨⟩, q₃, called, lay⟩ := lay.split
  obtain ⟨body, object⟩ := throws.object
  refine h.runFrameLoad i₁ (by decide) (by decide) h.framed.method ?_
  have h₁ := h.setReg .method a.method rfl
  refine h₁.verifyReference verified roomy (.inr ?_) fun c₂ m₂ h₂ same₂ _ changed₂ => ?_
  · rw [Cpu.reg_setReg_ne _ _ (by decide), held]
    exact h.inhabits.objects e _ object
  refine .mov i₂ ?_
  have h₃ := h₂.setReg .x1 (c₂.reg .x0) rfl
  refine h₃.runEmptyOperands emptied fun m₃ h₄ changed₃ => ?_
  refine h₄.runCallVm called (by decide) fun c₅ m₅ K' r resumed h₅ link x0 same₅ _ bytecode lastSp
    lastFp agrees confined => ?_
  have asked : c₅.reg .x1 = e := by
    rw [same₅ _ (by decide) (by decide) (by decide), Cpu.reg_setReg_ne _ _ (by decide),
      Cpu.reg_setReg_self _ _ (by decide), same₂ _ (by decide), Cpu.reg_setReg_ne _ _ (by decide),
      held]
  have method₅ : c₅.reg .method = a.method := by
    rw [same₅ _ (by decide) (by decide) (by decide), Cpu.reg_setReg_ne _ _ (by decide),
      Cpu.reg_setReg_ne _ _ (by decide), same₂ _ (by decide), Cpu.reg_setReg_self _ _ (by decide)]
  refine h₅.runSeek throws asked bytecode lastSp lastFp
    fun target bcp' m₆ goes h₆ saved result records => ?_
  rw [link]
  refine h₆.runResume resumed saved (by
    rintro r ⟨⟩
    decide) fun c₇ m₇ h₇ same₇ _ value changed₇ => ?_
  have thread := h.fits.thread
  have heap := h.fits.heap
  have operands := h.fits.operands
  have top := h.fits.top
  have untouched : m.Agrees m₇ 0x1000 a.heap.toNat :=
    (changed₂.agrees (by omega)).trans <| (changed₃.agrees (by omega)).trans <|
      (agrees 0x1000 a.heap.toNat (.inl (by omega))).trans <|
      (records.mono (Nat.zero_le _) (by omega)).trans (changed₇.agrees (by omega))
  have method₇ : c₇.reg .method = a.method := by
    rw [same₇ _ (by decide) (by decide) (by decide), Cpu.reg_setReg_ne _ _ (by decide), method₅]
  have target₇ : c₇.reg .x0 = target := by
    rw [same₇ _ (by decide) (by decide) (by decide), Cpu.reg_setReg_self _ _ (by decide)]
  exact h₇.runGoOn (x := { x with stack := [] }) method₇ ((value _ rfl).trans result) target₇ room
    (measured.agrees untouched) lay fun c' m' => next target bcp' c' m' goes

end Stands
end TemplateVm
