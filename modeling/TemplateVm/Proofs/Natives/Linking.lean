import TemplateVm.Proofs.Natives.Parameters

set_option autoImplicit false
set_option synthInstance.maxSize 100000

/-!
# Linking a native method

A native method is linked when it is called for the first time: the runtime writes the function that
is registered for it, its signature handler and its call format into the record of the method. From
then on the record is enough to call the function.
-/
namespace TemplateVm

open Memory (Guarded load)
open Native (CallFormat)
open Emit

/-! ## The service -/

namespace Vm

/-- The memory with a function, its handler and its format in the record of a method. -/
def linkRecord (address target handler : UInt64) (f : CallFormat) (m : Guarded) : Guarded :=
  ((m.put (address + MethodRecord.nativeFunction) 8 target).put
    (address + MethodRecord.signatureHandler) 8 handler).put
      (address + MethodRecord.callFormat) 4 f.pack.toUInt64

theorem changed_linkRecord {address target handler : UInt64} {f : CallFormat} {m : Guarded}
    (limit : address.toNat + 48 < 2 ^ 64) : m.Changed (linkRecord address target handler f m)
      (address.toNat + 24) (address.toNat + 44) := by
  have field {k : UInt64} (inside : k.toNat ≤ 48) : (address + k).toNat = address.toNat + k.toNat :=
    toNat_add_of_lt (by omega)
  have function : (address + MethodRecord.nativeFunction).toNat = address.toNat + 24 :=
    field (by decide)
  have signature : (address + MethodRecord.signatureHandler).toNat = address.toNat + 32 :=
    field (by decide)
  have format : (address + MethodRecord.callFormat).toNat = address.toNat + 40 := field (by decide)
  have eight : (8 : UInt64).toNat = 8 := rfl
  have four : (4 : UInt64).toNat = 4 := rfl
  exact (((Guarded.Changed.refl m _ _).put (by omega) (by omega)).put (by omega) (by omega)).put
    (by omega) (by omega)

/-- The writes are done where the record is open. -/
theorem linkRecord_ok {address target handler : UInt64} {f : CallFormat} {m : Guarded}
    (ok₁ : m.Open (address + MethodRecord.nativeFunction) 8)
    (ok₂ : m.Open (address + MethodRecord.signatureHandler) 8)
    (ok₃ : m.Open (address + MethodRecord.callFormat) 4) :
    (do
      Guarded.write (address + MethodRecord.nativeFunction) 8 target
      Guarded.write (address + MethodRecord.signatureHandler) 8 handler
      Guarded.write (address + MethodRecord.callFormat) 4 f.pack.toUInt64 :
        Guarded.Action Unit) m = .ok () (linkRecord address target handler f m) :=
  (bind_ok ok₁.write).trans ((bind_ok ok₂.put.write).trans ok₃.put.put.write)

section
variable {w : Vm} {address : UInt64} {id : MethodId} {function : Native.LinkedFunction}
  (known : w.world.classes.methodAt? address = some id)
  (found : w.library.find? (w.world.classes.member id) = some function)
include known found

theorem prepareNativeCall_eq {handler : UInt64} {i' : Image}
    (supplied : w.image.signatureHandler (w.world.classes.method id).descriptor
      (w.world.classes.method id).access.isStatic = .ok (handler, i'))
    (few : (w.world.classes.method id).descriptor.parameters.length ≤ Signature.maxParameters) :
    prepareNativeCall address w = onMemory (do
      Guarded.write (address + MethodRecord.nativeFunction) 8 function.address
      Guarded.write (address + MethodRecord.signatureHandler) 8 handler
      Guarded.write (address + MethodRecord.callFormat) 4
        (CallFormat.ofMethod (w.world.classes.method id).descriptor).pack.toUInt64)
      { w with image := i' } := by
  unfold prepareNativeCall
  refine (bind_ok (m := classes) rfl).trans ?_
  simp only [known]
  refine (bind_ok (m := (get : Action Vm)) rfl).trans ?_
  simp only [found]
  refine (bind_ok (m := (get : Action Vm)) rfl).trans ?_
  simp only [supplied, CallFormat.ofDescriptor_ok few]
  rfl

/-- What keeps the handler from being made keeps the method from being linked. -/
theorem prepareNativeCall_error {e : Failure}
    (refused : w.image.signatureHandler (w.world.classes.method id).descriptor
      (w.world.classes.method id).access.isStatic = .error e) :
    prepareNativeCall address w = .error e w := by
  unfold prepareNativeCall
  refine (bind_ok (m := classes) rfl).trans ?_
  simp only [known]
  refine (bind_ok (m := (get : Action Vm)) rfl).trans ?_
  simp only [found]
  refine (bind_ok (m := (get : Action Vm)) rfl).trans ?_
  simp only [refused]
  rfl

end

theorem perform_prepareNativeCall {w : Vm} {address : UInt64}
    (argument : w.processor.cpu.reg .x1 = address) :
    perform .prepareNativeCall w = prepareNativeCall address w := by
  subst argument
  rfl

/-- The next turn ends the run with the failure, and the host has not been called. -/
def Refuses (e : Failure) (b : Native.Bridge) (hooks : Hooks) (w : Vm) : Prop :=
  ∀ steps watched, ∃ u, turn (w.counted steps watched) = .error e u ∧ u.bridge = b ∧
    u.hooks = hooks

theorem Refuses.counted {e : Failure} {b : Native.Bridge} {hooks : Hooks} {w : Vm}
    (h : Refuses e b hooks w) (steps : UInt64) (watched : List (UInt64 × UInt64)) :
    Refuses e b hooks (w.counted steps watched) := h

end Vm

/-- An argument that is elsewhere is moved. -/
theorem Lays.passedOne {F : Finished} {ctx : CodeContext} {inStub : Bool} {K S : List CodeLabel}
    {q q' : UInt64} {r arg : Register} {rs : List Register} (other : r ≠ arg)
    (lay : Lays F ctx inStub K S (Emit.passArguments (r :: rs) [arg]) q q' ()) :
    F.code.Fetches q (.mov r arg) ∧ q' = q + 4 := by
  have each : ∀ x : Register × Register,
      Orderly ctx inStub K S S 1 (if x.1 = x.2 then pure () else mov x.1 x.2) := fun x =>
    Orderly.upto inferInstance (by decide)
  unfold Emit.passArguments at lay
  rw [List.zip_cons_cons, List.zip_nil_right] at lay
  obtain ⟨q₁, first, rest⟩ := Lays.forM_cons (o := each) lay
  obtain ⟨i, rfl⟩ := Lays.emit (i := .mov r arg) (first.ite_neg other)
  exact ⟨i, (Lays.ended rest).1⟩

namespace NativeCall

variable {a : NativeCall} {id : MethodId} {m₀ m m' : Guarded} {v : Vm} {c : Cpu} {t : ClassTable}
  {i i' : Image} {target : UInt64}

/-! ## What the record says -/

/-- The record of the method has its function, its handler and its format. -/
structure Linked (a : NativeCall) (t : ClassTable) (id : MethodId) (i : Image) (target : UInt64)
    (m : Guarded) : Prop where
  present : target ≠ 0
  function : load m.bytes (a.method.toNat + 24) 8 = target
  handler : (.shaped (t.method id).descriptor (t.method id).access.isStatic,
    load m.bytes (a.method.toNat + 32) 8) ∈ i.signatures
  format : load m.bytes (a.method.toNat + 40) 4 =
    (CallFormat.ofMethod (t.method id).descriptor).pack.toUInt64

/-- The method has not been linked yet, and a function is registered for it. -/
structure Fresh (a : NativeCall) (id : MethodId) (v : Vm) (target : UInt64) (m : Guarded) : Prop
    where
  present : target ≠ 0
  function : load m.bytes (a.method.toNat + 24) 8 = 0
  registered : ∃ f, v.library.find? (v.world.classes.member id) = some f ∧ f.address = target

/-- The method is linked, or it is not yet and there is room for the code of a handler. -/
def Callable (a : NativeCall) (id : MethodId) (v : Vm) (target : UInt64) (m : Guarded) : Prop :=
  a.Linked v.world.classes id v.image target m ∨
    a.Fresh id v target m ∧
      v.image.code.nextBase.toNat + Image.handlerBytes ≤ Place.codeLimit.toNat

theorem Linked.agrees (h : a.Linked t id i target m)
    (kept : m.Agrees m' (a.method.toNat + 24) (a.method.toNat + 44)) :
    a.Linked t id i target m' where
  present := h.present
  function := (kept.load (by omega) (by omega)).trans h.function
  handler := by
    rw [kept.load (by omega) (by omega)]
    exact h.handler
  format := (kept.load (by omega) (by omega)).trans h.format

theorem Linked.changed {lo hi : Nat} (h : a.Linked t id i target m) (hc : m.Changed m' lo hi)
    (away : hi ≤ a.method.toNat + 24 ∨ a.method.toNat + 44 ≤ lo) : a.Linked t id i target m' :=
  h.agrees (hc.agrees (by omega))

/-- What the record says decides, and what the runtime knows of classes, functions and code. -/
theorem Callable.agrees {w : Vm} (h : a.Callable id v target m)
    (kept : m.Agrees m' (a.method.toNat + 24) (a.method.toNat + 44))
    (classes : w.world.classes = v.world.classes) (library : w.library = v.library)
    (image : w.image = v.image) : a.Callable id w target m' := by
  unfold Callable at h ⊢
  rw [classes, image]
  refine h.imp (·.agrees kept) fun ⟨fresh, room⟩ => ⟨⟨fresh.present, ?_, ?_⟩, room⟩
  · exact (kept.load (by omega) (by omega)).trans fresh.function
  · rw [library, classes]
    exact fresh.registered

theorem changed_threadState {holder : UInt64} {n : Nat} (fits : a.Fits holder n m)
    (s : ThreadState) :
    m.Changed (Vm.threadState a.thread s m) (a.thread.toNat + 40) (a.thread.toNat + 44) := by
  have thread := fits.thread
  have parameters := fits.parameters
  have locals := fits.locals
  have offset : ThreadBlock.threadState.toNat = 40 := rfl
  have address : (a.thread + ThreadBlock.threadState).toNat = a.thread.toNat + 40 :=
    toNat_add_of_lt (by omega)
  have changed := Guarded.changed_put m (a.thread + ThreadBlock.threadState) 4 s.code.toUInt64
  rw [address] at changed
  exact changed

theorem Linked.threadState {holder : UInt64} {n : Nat} (h : a.Linked t id i target m)
    (fits : a.Fits holder n m) (s : ThreadState) :
    a.Linked t id i target (Vm.threadState a.thread s m) := by
  have method := fits.method
  exact h.changed (changed_threadState fits s) (.inr (by omega))

/-- What the runtime writes is what links the method. -/
theorem linked_linkRecord {handler : UInt64} (present : target ≠ 0)
    (clear : m.Clear a.method.toNat (a.method.toNat + 48)) (limit : a.method.toNat + 48 < 2 ^ 64)
    (kept : (.shaped (t.method id).descriptor (t.method id).access.isStatic, handler) ∈
      i.signatures) :
    a.Linked t id i target (Vm.linkRecord a.method target handler
      (.ofMethod (t.method id).descriptor) m) := by
  have eight : (8 : UInt64).toNat = 8 := rfl
  have four : (4 : UInt64).toNat = 4 := rfl
  have address₁ : (a.method + MethodRecord.nativeFunction).toNat = a.method.toNat + 24 :=
    toNat_add_of_lt (by change _ + 24 < _; omega)
  have address₂ : (a.method + MethodRecord.signatureHandler).toNat = a.method.toNat + 32 :=
    toNat_add_of_lt (by change _ + 32 < _; omega)
  have address₃ : (a.method + MethodRecord.callFormat).toNat = a.method.toNat + 40 :=
    toNat_add_of_lt (by change _ + 40 < _; omega)
  have ok₁ : m.Open (a.method + MethodRecord.nativeFunction) 8 := clear.open (by omega) (by omega)
  have ok₂ : m.Open (a.method + MethodRecord.signatureHandler) 8 := clear.open (by omega) (by omega)
  have ok₃ : m.Open (a.method + MethodRecord.callFormat) 4 := clear.open (by omega) (by omega)
  refine ⟨present, ?_, ?_, ?_⟩
  · rw [Vm.linkRecord, Guarded.load_put_of_disjoint (by omega),
      Guarded.load_put_of_disjoint (by omega), ← address₁, Guarded.load_put ok₁]
  · rw [Vm.linkRecord, Guarded.load_put_of_disjoint (by omega), ← address₂,
      Guarded.load_put ok₂.put]
    exact kept
  · rw [Vm.linkRecord, ← address₃, Guarded.load_put_word ok₃.put.put, UInt32.toUInt32_toUInt64]

namespace Ready

/-- The record of the method may be written. -/
theorem linkRecord {handler : UInt64} (h : a.Ready id m₀ v c m) (present : target ≠ 0)
    (kept : (.shaped (v.world.classes.method id).descriptor
      (v.world.classes.method id).access.isStatic, handler) ∈ i.signatures) :
    let m' := Vm.linkRecord a.method target handler
      (.ofMethod (v.world.classes.method id).descriptor) m
    a.Ready id m₀ v c m' ∧ a.Linked v.world.classes id i target m' := by
  have method := h.fits.method
  have thread := h.fits.thread
  have frame := h.fits.parameters
  have locals := h.fits.locals
  have constMethod := h.fits.constMethod
  have clear : m.Clear a.method.toNat (a.method.toNat + 48) :=
    h.fits.clear.mono (by omega) (by omega)
  have changed : m.Changed (Vm.linkRecord a.method target handler
      (.ofMethod (v.world.classes.method id).descriptor) m)
      (a.method.toNat + 24) (a.method.toNat + 44) := Vm.changed_linkRecord (by omega)
  exact ⟨h.changed changed (by unfold Spare; omega),
    linked_linkRecord present clear (by omega) kept⟩

/-- The state of the thread may be set. -/
theorem threadState (h : a.Ready id m₀ v c m) (s : ThreadState) :
    a.Ready id m₀ v c (Vm.threadState a.thread s m) :=
  h.changed (changed_threadState h.fits s) (.inl (by omega))

/-! ## Calling the service -/

section
variable {P : Vm → Prop} {turns : Nat} {q q' : UInt64} {place : CodeLabel → UInt64}
  {ctx : CodeContext} {inStub : Bool} {K S : List CodeLabel}

/-- The frame is shown to the runtime. -/
theorem runSetLastFrame {r : Register} {l : CodeLabel} [Known l K] (h : a.Ready id m₀ v c m)
    (lay : Lays ⟨v.image.code, place⟩ ctx inStub K S (Emit.setLastFrame r l) q q' ())
    (next : ∀ c' m', a.Ready id m₀ v c' m' → (∀ s, s ≠ .scratch1 → c'.reg s = c.reg s) →
      (∀ f, c'.float f = c.float f) → m.Changed m' (a.thread.toNat + 16) (a.thread.toNat + 40) →
      load m'.bytes (a.thread.toNat + 16) 8 = c.reg r →
      load m'.bytes (a.thread.toNat + 24) 8 = a.frame → Vm.Arrives P turns (v.moved q' c' m')) :
    Vm.Arrives P (turns + 4) (v.moved q c m) := by
  refine Vm.runSetLastFrame h.registers.thread (fun _ _ inside => h.threadField inside) lay
    fun c' m' spares changed sp fp => ?_
  have same (s : Register) (hs : s ≠ .scratch1) : c'.reg s = c.reg s :=
    spares.regs s (List.mem_singleton.not.mpr hs)
  exact next c' m' ((h.changed changed (by unfold Spare; omega)).congr fun r hr =>
    same r (by revert r; decide)) same spares.floats changed sp (fp.trans h.registers.frame)

/-- A service is called with one argument. -/
theorem runCallVm (h : a.Ready id m₀ v c m) {s : Service} {arg : Register} (other : .x1 ≠ arg)
    (lay : Lays ⟨v.image.code, place⟩ ctx inStub K S (Emit.callVm none s [arg]) q q' ())
    (next : ∀ c' m₁ m' K' r,
      Lays ⟨v.image.code, place⟩ ctx inStub K' S (Emit.resumeGuest none) r q' () →
      a.Ready id m₀ v c' m' → c'.reg .link = r → c'.reg .x1 = c.reg arg →
      (∀ r, r ∉ [Register.x0, .x1, .scratch1, .link] → c'.reg r = c.reg r) →
      load m'.bytes (a.thread.toNat + 16) 8 = c.reg .operands →
      load m'.bytes (a.thread.toNat + 24) 8 = a.frame →
      m.Changed m₁ (a.frame.toNat - 56) (a.frame.toNat - 48) →
      m₁.Changed m' (a.thread.toNat + 16) (a.thread.toNat + 40) →
      Vm.Arrives P turns (v.moved s.address c' m')) :
    Vm.Arrives P (turns + 9) (v.moved q c m) := by
  unfold Emit.callVm Emit.saveBytecode at lay
  obtain ⟨i₁, lay⟩ := lay.emit_bind
  obtain ⟨⟨⟩, q₁, passed, lay⟩ := lay.split
  obtain ⟨i₂, lay⟩ := lay.emit_bind
  obtain ⟨resume, lay⟩ := lay.newLabel_bind
  obtain ⟨⟨⟩, q₂, shown, lay⟩ := lay.split
  obtain ⟨i₃, lay⟩ := lay.emit_bind
  obtain ⟨i₄, lay⟩ := lay.emit_bind
  obtain ⟨-, resumed⟩ := lay.bind_bind
  obtain ⟨i₀, rfl⟩ := passed.passedOne other
  have top := h.fits.thread
  have eight : (8 : UInt64).toNat = 8 := rfl
  have offset : (56 : UInt64).toNat = 56 := rfl
  obtain ⟨address, ok⟩ := h.frameSlot (k := 56) (by decide) (by decide)
  refine .storeAt h.registers.frame i₁ ok (.mov i₀ (.mov i₂ ?_))
  have changed := Guarded.changed_put m (a.frame + -56) 8 (c.reg .bytecode)
  have saved : a.Ready id m₀ v c (m.put (a.frame + -56) 8 (c.reg .bytecode)) :=
    h.changed changed (by unfold Spare; omega)
  refine ((saved.setReg .x1 _ (by decide)).setReg .x0 _ (by decide)).runSetLastFrame shown
    fun c₁ m₁ h₁ same _ changed₁ sp fp => .movImm i₃ (.callTo i₄ ?_)
  rw [Cpu.reg_setReg_self _ _ (by decide)]
  refine next _ _ m₁ _ _ resumed ((h₁.setReg .scratch1 _ (by decide)).setReg .link _ (by decide))
    (Cpu.reg_setReg_self _ _ (by decide)) ?_ (fun r hr => ?_) ?_ fp
    (changed.mono (by omega) (by omega)) changed₁
  · rw [Cpu.reg_setReg_ne _ _ (by decide), Cpu.reg_setReg_ne _ _ (by decide), same _ (by decide),
      Cpu.reg_setReg_ne _ _ (by decide), Cpu.reg_setReg_self _ _ (by decide)]
  · simp only [List.mem_cons, List.not_mem_nil, or_false, not_or] at hr
    rw [Cpu.reg_setReg_ne _ _ hr.2.2.2, Cpu.reg_setReg_ne _ _ hr.2.2.1, same _ hr.2.2.1,
      Cpu.reg_setReg_ne _ _ hr.1, Cpu.reg_setReg_ne _ _ hr.2.1]
  · rw [sp, Cpu.reg_setReg_ne _ _ (by decide), Cpu.reg_setReg_ne _ _ (by decide)]

/-- After the service the method goes on with its own registers. -/
theorem runResume (h : a.Ready id m₀ v c m)
    (lay : Lays ⟨v.image.code, place⟩ ctx inStub K S (Emit.resumeGuest none) q q' ())
    (next : ∀ c' m', a.Ready id m₀ v c' m' →
      (∀ r, r ∉ [Register.scratch1, .bytecode, .locals] → c'.reg r = c.reg r) →
      m.Changed m' (a.thread.toNat + 8) (a.thread.toNat + 48) →
      Vm.Arrives P turns (v.moved q' c' m')) : Vm.Arrives P (turns + 13) (v.moved q c m) := by
  refine Vm.runAfterService h.registers.thread (fun _ _ inside => h.threadField inside) lay
    (fun _ _ _ _ asks => absurd h.framed.pop asks.pending)
    (fun _ _ _ some => absurd h.framed.pending some) fun c₁ m₁ r _ _ lay₁ spares changed => ?_
  obtain ⟨⟨⟩, r', value, lay₂⟩ := lay₁.split
  obtain ⟨i₁, lay₃⟩ := Lays.emit_bind
    (i := .load .bytecode (.base .frame Frame.bytecode) .double false) lay₂
  obtain ⟨i₂, rfl⟩ := Lays.emit (i := .load .locals (.base .frame Frame.locals) .double false) lay₃
  obtain ⟨rfl, -⟩ := Lays.ended value
  have h₁ : a.Ready id m₀ v c₁ m₁ := (h.changed changed (by unfold Spare; omega)).congr
    fun r hr => spares.regs r (by revert r; decide)
  refine h₁.runFrameLoad i₁ (by decide) (by decide) rfl ?_
  refine (h₁.setReg .bytecode _ (by decide)).runFrameLoad i₂ (by decide) (by decide)
    h₁.framed.locals ?_
  have back {r : Register} (hr : r ∉ [Register.bytecode, .locals]) (x y : UInt64) :
      ((c₁.setReg .bytecode x).setReg .locals y).reg r = c₁.reg r := by
    simp only [List.mem_cons, List.not_mem_nil, or_false, not_or] at hr
    rw [Cpu.reg_setReg_ne _ _ hr.2, Cpu.reg_setReg_ne _ _ hr.1]
  have registers := h₁.registers
  refine next _ m₁ { h₁ with registers :=
    { thread := (back (by decide) _ _).trans registers.thread
      frame := (back (by decide) _ _).trans registers.frame
      locals := Cpu.reg_setReg_self _ _ (by decide)
      method := (back (by decide) _ _).trans registers.method } } (fun r hr => ?_)
    (changed.mono (by omega) (by omega))
  rw [List.mem_cons, not_or] at hr
  exact (back hr.2 _ _).trans (spares.regs r (List.mem_singleton.not.mpr hr.1))

end
end Ready
end NativeCall
end TemplateVm
