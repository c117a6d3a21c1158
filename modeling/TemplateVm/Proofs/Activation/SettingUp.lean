import TemplateVm.Proofs.Activation.Banging
import TemplateVm.Proofs.Activation.Framing
import TemplateVm.Proofs.Loading.Operands

set_option autoImplicit false
set_option synthInstance.maxSize 100000

/-!
# Entering a bytecoded method

From the entry a bytecoded method gets to its first bytecode with its arguments for the first
locals, zeros for the others, and no operands. The store that clears a local is executed once for
each of them. On the way an exception may be thrown, the frame popped or an access refused; if the
check of the stack fails, nothing has been written.
-/
namespace TemplateVm

open Memory (Guarded load byteAt)

namespace GuestCall

/-- So many bytes of records can be relied on: they are not the count of invocations. -/
def Readable (a : GuestCall) (map : MemoryMap) (j n : Nat) : Prop :=
  j + n ≤ map.thread.toNat ∧ (j + n ≤ a.method.toNat + 12 ∨ a.method.toNat + 16 ≤ j)

/-- What a synchronized method locks: its receiver, or the object of its class. -/
inductive Locks (a : GuestCall) (map : MemoryMap) (m : Guarded) : Prop
  | receiver (flags : load m.bytes (a.method.toNat + 8) 4 &&& Access.staticBit.toUInt64 = 0)
    (some : 0 < a.parameters.toNat) (object : load m.bytes a.locals.toNat 8 = a.object)
  | holder {pool holder : UInt64}
    (flags : load m.bytes (a.method.toNat + 8) 4 &&& Access.staticBit.toUInt64 ≠ 0)
    (constants : load m.bytes a.constMethod.toNat 8 = pool)
    (readable : a.Readable map pool.toNat 8 ∧ a.Readable map (holder.toNat + 8) 8)
    (owner : load m.bytes pool.toNat 8 = holder)
    (object : load m.bytes (holder.toNat + 8) 8 = a.object)

/-- The records are there, and what is locked by a synchronized method is an object below the
    stack, or none. -/
structure Lockable (a : GuestCall) (synchronized : Bool) (map : MemoryMap) (m : Guarded) :
    Prop where
  recorded : a.Recorded map m
  locks : synchronized = true → a.Locks map m
  parameters : 0 < a.parameters.toNat → a.base.toNat ≤ a.locals.toNat
  away : synchronized = true → a.object ≠ 0 → a.object.toNat + 8 ≤ map.stackLimit.toNat

variable {a : GuestCall} {v w : Vm} {c c' : Cpu} {m m' m₀ : Guarded} {p q q' k t : UInt64}
  {place : CodeLabel → UInt64} {ctx : CodeContext} {K S T : List CodeLabel} {Q : Nat → Vm → Prop}
  {turns : Nat} {locked synchronized : Bool} {A : Nat → Prop}

namespace Framed

/-! ## Before the lock -/

theorem readable (h : a.Framed false m₀ v c m) {j n : Nat} (readable : a.Readable v.map j n) :
    load m.bytes j n = load m₀.bytes j n :=
  Memory.load_congr fun i first last => h.records rfl i (by
    unfold Readable at readable
    exact ⟨by omega, by omega⟩)

/-- The invocation is counted. -/
theorem countsCount (h : a.Framed locked m₀ v c m) {overflow : CodeLabel} [Known overflow K]
    (lay : Lays ⟨v.image.code, place⟩ ctx true K S (Emit.countInvocation overflow) q q' ())
    (next : ∀ c' m', a.Framed locked m₀ v c' m' → Vm.Counts k .clearing Q turns (v.moved q' c' m'))
    (reached : ∀ c' m', a.Framed locked m₀ v c' m' →
      Vm.Counts k .clearing Q turns (v.moved (place overflow) c' m')) :
    Vm.Counts k .clearing Q (turns + 6) (v.moved q c m) := by
  unfold Emit.countInvocation at lay
  obtain ⟨i₁, lay⟩ := lay.emit_bind
  obtain ⟨i₂, lay⟩ := lay.emit_bind
  obtain ⟨i₃, lay⟩ := lay.emit_bind
  replace lay := lay.settings_bind
  obtain ⟨i₄, lay⟩ := lay.emit_bind
  obtain ⟨i₅, lay⟩ := lay.emit_bind
  obtain ⟨i₆, rfl⟩ := lay.emitTo
  have method := h.method
  have limit := v.map.thread.toNat_lt
  have four : Width.word.bytes.toNat = 4 := rfl
  have counter : (a.method + MethodRecord.invocationCounter).toNat = a.method.toNat + 12 :=
    toNat_add_of_lt (by change _ + 12 < _; omega)
  refine .load i₁ (by simp) fun _ => ?_
  rw [Cpu.rebase_base]
  generalize load m.bytes _ Width.word.bytes.toNat = n
  refine .binary i₂ (by simp) ?_
  rw [Cpu.setReg_setReg]
  generalize Binary.apply _ _ .add = sum
  have h₁ := h.setReg .scratch1 sum (by decide)
  refine .store i₃ (by simp) fun _ => ?_
  rw [Cpu.target_base, Cpu.rebase_base, h₁.methodRegister]
  have h₂ := h₁.changed (Guarded.changed_put m (a.method + MethodRecord.invocationCounter)
    Width.word.bytes ((c.setReg .scratch1 sum).reg .scratch1)) (.inr (by omega))
  have h₃ := h₂.setReg .scratch2 ctx.settings.compileThreshold.toUInt64 (by decide)
  exact .movImm i₄ (by simp) (.compare i₅ (by simp) (.branchIf i₆ (by simp)
    (fun _ => reached _ _ (h₃.setFlags _)) fun _ => next _ _ (h₃.setFlags _)))

theorem countsBangs (h : a.Framed locked m₀ v c m) {pages : List Nat} {size : UInt64}
    (lay : Lays ⟨v.image.code, place⟩ ctx true K S
      (pages.forM fun page => Emit.bangStack (page.toUInt64 * size)) q q' ())
    (next : ∀ c', a.Framed locked m₀ v c' m → Vm.Counts k .clearing Q turns (v.moved q' c' m)) :
    Vm.Counts k .clearing Q (turns + 3 * pages.length) (v.moved q c m) := by
  induction pages generalizing q c with
  | nil =>
    obtain ⟨rfl, -⟩ := lay.ended
    exact next c h
  | cons page pages ih =>
    obtain ⟨r, touch, lay⟩ := Lays.forM_cons lay
    unfold Emit.bangStack at touch
    obtain ⟨i₁, touch⟩ := touch.emit_bind
    obtain ⟨i₂, touch⟩ := touch.emit_bind
    obtain ⟨i₃, rfl⟩ := touch.emit
    change Vm.Counts k .clearing Q (turns + 3 * pages.length + 3) _
    refine .movImm i₁ (by simp) (.binary i₂ (by simp) (.load i₃ (by simp) fun _ => ih ?_ lay))
    exact ((h.setReg .scratch2 _ (by decide)).setReg .scratch2 _ (by decide)).setReg .zero _
      (by decide)

/-- The stack is touched. -/
theorem countsBangShadow (h : a.Framed locked m₀ v c m)
    (lay : Lays ⟨v.image.code, place⟩ ctx true K S (Emit.bangShadow false) q q' ())
    (next : ∀ c', a.Framed locked m₀ v c' m → Vm.Counts k .clearing Q turns (v.moved q' c' m)) :
    Vm.Counts k .clearing Q (turns + 3 * ctx.settings.shadowPages.toNat) (v.moved q c m) := by
  unfold Emit.bangShadow at lay
  replace lay := lay.settings_bind
  by_cases on : ctx.settings.stackBanging = true
  · replace lay := lay.ite_pos on
    simp only [Bool.false_eq_true, ↓reduceIte] at lay
    refine (h.countsBangs lay next).le ?_
    rw [List.length_range']
    omega
  · obtain ⟨rfl, -⟩ := (lay.ite_neg on).ended
    exact (next c h).le (by omega)

/-- A method that is not to be locked is left as it is. -/
theorem countsUnlocked (h : a.Framed locked m₀ v c m)
    (lay : Lays ⟨v.image.code, place⟩ ctx true K S Emit.checkUnsynchronized q q' ())
    (next : ∀ c', a.Framed locked m₀ v c' m → Vm.Counts k .clearing Q turns (v.moved q' c' m)) :
    Vm.Counts k .clearing Q (turns + 4) (v.moved q c m) := by
  unfold Emit.checkUnsynchronized at lay
  replace lay := lay.settings_bind
  by_cases on : ctx.settings.debugChecks = true
  · replace lay := lay.ite_pos on
    obtain ⟨ok, lay⟩ := lay.newLabel_bind
    obtain ⟨i₁, lay⟩ := lay.emit_bind
    obtain ⟨i₂, lay⟩ := lay.emit_bind
    obtain ⟨i₃, lay⟩ := lay.emitTo_bind
    obtain ⟨i₄, lay⟩ := lay.emit_bind
    obtain ⟨here, rfl⟩ := lay.bind
    rw [here] at i₃
    exact .load i₁ (by simp) fun _ => .test i₂ (by simp) (.branchIf i₃ (by simp)
      (fun _ => (next _ ((h.setReg .scratch1 _ (by decide)).setFlags _)).le
        (Nat.le_add_right turns 1)) fun _ => .stop i₄ (by simp))
  · obtain ⟨rfl, -⟩ := (lay.ite_neg on).ended
    exact (next c h).le (by omega)

/-- The operands begin where the frame says. -/
theorem countsVerify (h : a.Framed locked m₀ v c m)
    (lay : Lays ⟨v.image.code, place⟩ ctx true K S Emit.verifyFrame q q' ())
    (next : ∀ c', a.Framed locked m₀ v c' m → Vm.Counts k .clearing Q turns (v.moved q' c' m)) :
    Vm.Counts k .clearing Q (turns + 4) (v.moved q c m) := by
  unfold Emit.verifyFrame at lay
  replace lay := lay.settings_bind
  by_cases on : ctx.settings.debugChecks = true
  · replace lay := lay.ite_pos on
    obtain ⟨ok, lay⟩ := lay.newLabel_bind
    obtain ⟨i₁, lay⟩ := lay.emit_bind
    obtain ⟨i₂, lay⟩ := lay.emit_bind
    obtain ⟨i₃, lay⟩ := lay.emitTo_bind
    obtain ⟨i₄, lay⟩ := lay.emit_bind
    obtain ⟨here, rfl⟩ := lay.bind
    rw [here] at i₃
    exact .load i₁ (by simp) fun _ => .compare i₂ (by simp) (.branchIf i₃ (by simp)
      (fun _ => (next _ ((h.setReg .scratch1 _ (by decide)).setFlags _)).le
        (Nat.le_add_right turns 1)) fun _ => .stop i₄ (by simp))
  · obtain ⟨rfl, -⟩ := (lay.ite_neg on).ended
    exact (next c h).le (by omega)

/-! ## Services -/

section
variable {pop : UInt64} (exits : ∀ w, Left ctx.forwardException pop w → Q 0 w)
  (popped : ∀ l, ctx.popFrame = some l → place l = pop)
include exits popped

/-- A service that writes to the block of the thread only is called. -/
theorem countsOwnService (h : a.Framed locked m₀ v c m) {s : Service} (arg : Option Register)
    (lay : Lays ⟨v.image.code, place⟩ ctx true K S (Emit.callVm none s arg.toList) q q' ())
    (leaf : s.isLeaf = false)
    (work : ∀ (v₀ : Vm) (A : Nat → Prop), v₀.Mapped → ThreadBlock.Beside ⟨v₀.map.thread⟩ A →
      Preserves (Vm.Serving A v₀) (Vm.perform s))
    (next : ∀ (v' : Vm) c' m', v'.image = v.image → v'.map = v.map → a.Framed locked m₀ v' c' m' →
      Vm.Counts k .clearing Q turns (v'.moved q' c' m')) :
    Vm.Counts k .clearing Q (turns + 23) (v.moved q c m) := by
  have low := h.low
  refine h.countsCallVm arg exits popped lay leaf
    (A := fun j => j < v.map.thread.toNat ∨ v.map.thread.toNat + 0x1000 ≤ j) (fun _ hj => hj)
    (fun j hj => .inr (by omega)) (fun _ j hj => .inl hj.1)
    (fun c₁ m₁ steps watched h₁ _ => ?_) next
  exact work _ _ (h₁.fenced.mapped.congr rfl rfl) fun _ hj => hj

/-- The method is reported to a debugger that wants to know. -/
theorem countsNotify (h : a.Framed locked m₀ v c m)
    (lay : Lays ⟨v.image.code, place⟩ ctx true K S Emit.notifyEntry q q' ())
    (next : ∀ (v' : Vm) c' m', v'.image = v.image → v'.map = v.map → a.Framed locked m₀ v' c' m' →
      Vm.Counts k .clearing Q turns (v'.moved q' c' m')) :
    Vm.Counts k .clearing Q (turns + 25) (v.moved q c m) := by
  unfold Emit.notifyEntry at lay
  obtain ⟨done, lay⟩ := lay.newLabel_bind
  obtain ⟨i₁, lay⟩ := lay.emit_bind
  obtain ⟨i₂, lay⟩ := lay.emitTo_bind
  obtain ⟨⟨⟩, q₁, service, lay⟩ := lay.split
  obtain ⟨here, rfl⟩ := lay.bind
  rw [here] at i₂
  have h₁ := h.setReg .x3 (load m.bytes (v.map.thread + ThreadBlock.interpretOnly).toNat
    Width.word.bytes.toNat) (by decide)
  refine h.countsThreadLoad i₁ (.branchZero i₂ (by simp)
    (fun _ => (next v _ m rfl rfl h₁).le (by omega)) fun _ => ?_)
  exact h₁.countsOwnService exits popped none service (by decide)
    (fun _ _ mapped beside => mapped.serving_performEntry beside) next

/-- A count that has reached the threshold is reported. -/
theorem countsReport (h : a.Framed locked m₀ v c m) {continuation : CodeLabel}
    [Known continuation K]
    (lay : Lays ⟨v.image.code, place⟩ ctx true K S (Emit.reportOverflow continuation) q q' ())
    (next : ∀ (v' : Vm) c' m', v'.image = v.image → v'.map = v.map → a.Framed locked m₀ v' c' m' →
      Vm.Counts k .clearing Q turns (v'.moved (place continuation) c' m')) :
    Vm.Counts k .clearing Q (turns + 24) (v.moved q c m) := by
  unfold Emit.reportOverflow at lay
  obtain ⟨⟨⟩, q₁, service, lay⟩ := lay.split
  obtain ⟨i, rfl⟩ := lay.emitTo
  refine h.countsOwnService exits popped (some .zero) service (by decide)
    (fun _ _ _ _ => Vm.serving_performOverflow) fun v' c' m' image map h' => ?_
  rw [← image] at i
  exact .branch i (by simp) (next v' c' m' image map h')

/-! ## The lock -/

omit exits popped in
/-- The fixed part of the frame is followed by the record of the monitor, with the object in it. -/
theorem withMonitor (h : a.Framed false m₀ v c m)
    (same : ∀ r, r ≠ .sp → r ≠ .operands → c'.reg r = c.reg r)
    (operands : c'.reg .operands = a.top true) (sp : c'.reg .sp = a.sp true)
    (changed : m.Changed m' (a.frame.toNat - 72) (a.frame.toNat - 56))
    (topSlot : load m'.bytes (a.frame.toNat - 64) 8 = a.top true)
    (objectSlot : load m'.bytes (a.frame.toNat - 72) 8 = a.object) : a.Framed true m₀ v c' m' := by
  have base := h.base
  have kept {j : Nat} {n : UInt64} (away : a.frame.toNat - 56 ≤ j)
      (was : load m.bytes j 8 = n) : load m'.bytes j 8 = n :=
    ((changed.agrees (.inr away)).load (Nat.le_refl j) (Nat.le_refl _)).trans was
  exact {
    fenced := h.fenced.alike ⟨changed.size, changed.guards⟩
    method := h.method
    placed := h.placed
    base
    threadRegister := (same _ (by decide) (by decide)).trans h.threadRegister
    methodRegister := (same _ (by decide) (by decide)).trans h.methodRegister
    frameRegister := (same _ (by decide) (by decide)).trans h.frameRegister
    operands
    locals := (same _ (by decide) (by decide)).trans h.locals
    bytecode := (same _ (by decide) (by decide)).trans h.bytecode
    dispatch := (same _ (by decide) (by decide)).trans h.dispatch
    sp
    localsSlot := kept (by omega) h.localsSlot
    bytecodeSlot := kept (by omega) h.bytecodeSlot
    topSlot
    object := fun _ => objectSlot
    above := fun j hj => (changed.other j (by omega)).trans (h.above j hj)
    records := by simp }

/-- The record of the monitor is made below the fixed part of the frame, and locked. -/
theorem countsRecord (h : a.Framed false m₀ v c m) (object : c.reg .x0 = a.object)
    (away : a.object ≠ 0 → a.object.toNat + 8 ≤ v.map.stackLimit.toNat)
    (lay : Lays ⟨v.image.code, place⟩ ctx true K S (do
      Emit.sub .sp .sp (.imm Frame.monitorSize)
      Emit.sub .operands .operands (.imm Frame.monitorSize)
      Emit.str .operands (Emit.frameSlot Frame.monitorTop)
      Emit.str .x0 (Register.operands.at Frame.monitorObject)
      Emit.mov .x1 .operands
      Emit.lockObject .x1) q q' ())
    (next : ∀ (v' : Vm) c' m', v'.image = v.image → v'.map = v.map → a.Framed true m₀ v' c' m' →
      Vm.Counts k .clearing Q turns (v'.moved q' c' m')) :
    Vm.Counts k .clearing Q (turns + 28) (v.moved q c m) := by
  obtain ⟨i₁, lay⟩ := lay.emit_bind
  obtain ⟨i₂, lay⟩ := lay.emit_bind
  obtain ⟨i₃, lay⟩ := lay.emit_bind
  obtain ⟨i₄, lay⟩ := lay.emit_bind
  obtain ⟨i₅, lay⟩ := lay.emit_bind
  have low := h.low
  have base := h.base
  have limit := a.frame.toNat_lt
  have lower : a.top false - Frame.monitorSize = a.top true := by
    change a.frame + Frame.monitorTop - Frame.monitorSize = a.frame + Frame.firstMonitor
    rw [UInt64.sub_eq_add_neg, UInt64.add_assoc]
    rfl
  have slot : (a.frame + Frame.monitorTop).toNat = a.frame.toNat - 64 :=
    toNat_add_neg (k := 64) (by change 64 ≤ _; omega)
  have record : (a.top true).toNat = a.frame.toNat - 80 :=
    toNat_add_neg (k := 80) (by change 80 ≤ _; omega)
  have word : (a.top true + Frame.monitorObject).toNat = a.frame.toNat - 72 := by
    rw [toNat_add_of_lt (by rw [record]; change _ + 8 < _; omega), record]
    change _ + 8 = _
    omega
  have eight : (8 : UInt64).toNat = 8 := rfl
  have double : Width.double.bytes = 8 := rfl
  refine .binary i₁ (by simp) (.binary i₂ (by simp) ?_)
  simp +decide only [Cpu.operand, Cpu.reg_setReg, ↓reduceIte, h.operands, h.sp]
  change Vm.Counts k .clearing Q _ (v.moved _ ((c.setReg .sp (a.sp true)).setReg .operands
    (a.top false - Frame.monitorSize)) m)
  rw [lower]
  generalize hc : Cpu.setReg _ .operands _ = c₁
  have top : c₁.reg .operands = a.top true := by
    rw [← hc]
    simp +decide only [Cpu.reg_setReg, ↓reduceIte]
  have sp : c₁.reg .sp = a.sp true := by
    rw [← hc]
    simp +decide only [Cpu.reg_setReg, ↓reduceIte]
  have same (r : Register) (h₁ : r ≠ .sp) (h₂ : r ≠ .operands) : c₁.reg r = c.reg r := by
    rw [← hc, Cpu.reg_setReg_ne _ _ h₂, Cpu.reg_setReg_ne _ _ h₁]
  refine .store i₃ (by simp) fun ok => ?_
  have frame : c₁.reg .frame = a.frame :=
    (same _ (by decide) (by decide)).trans h.frameRegister
  have object₁ : c₁.reg .x0 = a.object := (same _ (by decide) (by decide)).trans object
  rw [Cpu.target_base, frame] at ok ⊢
  rw [Cpu.rebase_base, top, double]
  refine .store i₄ (by simp) fun ok' => .mov i₅ (by simp) ?_
  rw [Cpu.target_base, top] at ok' ⊢
  rw [Cpu.rebase_base, object₁, double, top]
  have changed : m.Changed ((m.put (a.frame + Frame.monitorTop) 8 (a.top true)).put
      (a.top true + Frame.monitorObject) 8 a.object) (a.frame.toNat - 72) (a.frame.toNat - 56) :=
    ((Guarded.Changed.refl m _ _).put (by omega) (by omega)).put (by omega) (by omega)
  have topSlot : load ((m.put (a.frame + Frame.monitorTop) 8 (a.top true)).put
      (a.top true + Frame.monitorObject) 8 a.object).bytes (a.frame.toNat - 64) 8 = a.top true := by
    rw [Guarded.load_put_of_disjoint (by omega), ← slot]
    exact Guarded.load_put ok
  have objectSlot : load ((m.put (a.frame + Frame.monitorTop) 8 (a.top true)).put
      (a.top true + Frame.monitorObject) 8 a.object).bytes (a.frame.toNat - 72) 8 = a.object := by
    rw [← word]
    exact Guarded.load_put ok'
  generalize (m.put (a.frame + Frame.monitorTop) 8 (a.top true)).put
    (a.top true + Frame.monitorObject) 8 a.object = m₂ at changed topSlot objectSlot ⊢
  have locked : a.Framed true m₀ v c₁ m₂ := h.withMonitor same top sp changed topSlot objectSlot
  refine (locked.setReg .x1 (a.top true) (by decide)).countsCallVm (some .x1) exits popped lay
    (by decide) (A := fun j => a.frame.toNat - 72 ≤ j) (fun j hj => .inr (by
      change v.map.thread.toNat + 0x1000 ≤ j
      omega)) (fun _ hj => hj) (by simp) (fun c₂ m₃ steps watched h₂ passed => ?_) next
  have second : c₂.reg .x1 = a.top true :=
    (passed _ rfl).trans (Cpu.reg_setReg_self _ _ (by decide))
  have placed := h₂.placed
  refine Vm.Mapped.serving_performLock a.object (h₂.fenced.mapped.congr rfl rfl)
    (fun j hj => ?_) second (fun u serving => ?_) (fun j hj => ?_) fun real j hj => ?_
  · change v.map.thread.toNat + 0x1000 ≤ j
    omega
  · rw [word]
    refine Eq.trans (Memory.load_congr fun j first _ => ?_) (h₂.object rfl)
    exact serving.bytes.bytes j first
  · omega
  · have heap := away real
    omega

omit exits popped in
/-- What is to be locked is found in the first local, or through the records of the class. -/
theorem countsObject (h : a.Framed false m₀ v c m) (lockable : a.Lockable true v.map m₀)
    (i₁ : v.image.code.Fetches q (.load .x0 (.base .method MethodRecord.accessFlags) .word false))
    (i₂ : v.image.code.Fetches (q + 4) (.test .x0 (.imm Access.staticBit.toUInt64)))
    (i₃ : v.image.code.Fetches (q + 4 + 4) (.load .x0 (.base .locals 0) .double false))
    (i₄ : v.image.code.Fetches (q + 4 + 4 + 4) (.branchIf .eq q'))
    (chain : Lays ⟨v.image.code, place⟩ ctx true K S (Emit.loadClassObject .x0)
      (q + 4 + 4 + 4 + 4) q' ())
    (next : ∀ c', a.Framed false m₀ v c' m → c'.reg .x0 = a.object →
      Vm.Counts k .clearing Q turns (v.moved q' c' m)) :
    Vm.Counts k .clearing Q (turns + 8) (v.moved q c m) := by
  unfold Emit.loadClassObject at chain
  obtain ⟨i₅, chain⟩ := chain.emit_bind
  obtain ⟨i₆, chain⟩ := chain.emit_bind
  obtain ⟨i₇, chain⟩ := chain.emit_bind
  obtain ⟨i₈, rfl⟩ := chain.emit
  have method := h.method
  have limit := v.map.thread.toNat_lt
  have word : Width.word.bytes.toNat = 4 := rfl
  have double : Width.double.bytes.toNat = 8 := rfl
  have flagsAt : (a.method + MethodRecord.accessFlags).toNat = a.method.toNat + 8 :=
    toNat_add_of_lt (by change _ + 8 < _; omega)
  have flags : load m.bytes (a.method.toNat + 8) 4 = load m₀.bytes (a.method.toNat + 8) 4 :=
    h.readable ⟨by omega, by omega⟩
  have first {b : UInt64} : b + 0 = b := UInt64.add_zero b
  refine .load i₁ (by simp) fun _ => .test i₂ (by simp) (.load i₃ (by simp) fun _ => ?_)
  simp +decide only [Cpu.target_base, Cpu.rebase_base, Cpu.operand, Cpu.reg_setReg,
    Cpu.reg_setFlags, ↓reduceIte, h.methodRegister, h.locals, first, flagsAt, word, double, flags]
  have h₁ := ((h.setReg .x0 (load m₀.bytes (a.method.toNat + 8) 4) (by decide)).setFlags
    (.ofTest (load m₀.bytes (a.method.toNat + 8) 4 &&& Access.staticBit.toUInt64))).setReg .x0
    (load m.bytes a.locals.toNat 8) (by decide)
  have tested (n : UInt64) : Condition.eq.holds (.ofTest n) = decide (n = 0) := by
    rw [Bool.eq_iff_iff, decide_eq_true_iff]
    exact beq_iff_eq
  refine .branchIf i₄ (by simp) (fun zero => ?_) fun nonzero => ?_
  · have zero := of_decide_eq_true ((tested _).symm.trans zero)
    refine (next _ h₁ ((Cpu.reg_setReg_self _ _ (by decide)).trans ?_)).le (by omega)
    cases lockable.locks rfl with
    | receiver _ some object =>
      have place := lockable.parameters some
      exact (Memory.load_congr fun j low _ => h.above j (Nat.le_trans place low)).trans object
    | holder other => exact absurd zero other
  · have nonzero := of_decide_eq_false ((tested _).symm.trans nonzero)
    cases lockable.locks rfl with
    | receiver same => exact absurd same nonzero
    | @holder pool holder _ constants readable owner object =>
      have recorded := lockable.recorded
      have apart := recorded.apart
      have placed := recorded.constMethod
      obtain ⟨readable₁, readable₂⟩ := readable
      have offset : (holder + ClassRecord.classObject).toNat = holder.toNat + 8 :=
        toNat_add_of_lt (by
          have := readable₂.1
          change _ + 8 < _
          omega)
      have code := (h.readable (j := a.method.toNat) (n := 8) ⟨by omega, by omega⟩).trans
        recorded.code
      have constants := (h.readable (j := a.constMethod.toNat) (n := 8)
        ⟨by omega, by omega⟩).trans constants
      have owner := (h.readable readable₁).trans owner
      have object := (h.readable readable₂).trans object
      refine .load i₅ (by simp) fun _ => .load i₆ (by simp) fun _ => .load i₇ (by simp) fun _ =>
        .load i₈ (by simp) fun _ => ?_
      have at₁ : a.method + MethodRecord.constMethod = a.method := UInt64.add_zero _
      have at₂ : a.constMethod + ConstMethodRecord.constants = a.constMethod := UInt64.add_zero _
      have at₃ : pool + PoolRecord.holder = pool := UInt64.add_zero _
      simp +decide only [Cpu.target_base, Cpu.rebase_base, Cpu.reg_setReg, Cpu.reg_setFlags,
        Cpu.setReg_setReg, ↓reduceIte, h.methodRegister, at₁, at₂, at₃, offset, double, code,
        constants, owner, object]
      refine next _ ?_ (Cpu.reg_setReg_self _ _ (by decide))
      exact ((h.setReg .x0 _ (by decide)).setFlags _).setReg .x0 _ (by decide)

/-- The method is locked. -/
theorem countsLock (h : a.Framed false m₀ v c m) (lockable : a.Lockable true v.map m₀)
    (lay : Lays ⟨v.image.code, place⟩ ctx true K S Emit.lockMethod q q' ())
    (next : ∀ (v' : Vm) c' m', v'.image = v.image → v'.map = v.map → a.Framed true m₀ v' c' m' →
      Vm.Counts k .clearing Q turns (v'.moved q' c' m')) :
    Vm.Counts k .clearing Q (turns + 37) (v.moved q c m) := by
  unfold Emit.lockMethod at lay
  obtain ⟨done, lay⟩ := lay.newLabel_bind
  obtain ⟨i₁, lay⟩ := lay.emit_bind
  obtain ⟨i₂, lay⟩ := lay.emit_bind
  obtain ⟨i₃, lay⟩ := lay.emit_bind
  obtain ⟨i₄, lay⟩ := lay.emitTo_bind
  obtain ⟨⟨⟩, q₁, chain, lay⟩ := lay.split
  obtain ⟨here, rest⟩ := lay.bind_bind
  rw [here] at i₄
  replace rest := rest.settings_bind
  refine h.countsObject lockable i₁ i₂ i₃ i₄ chain fun c₁ h₁ object => ?_
  have away := lockable.away rfl
  by_cases on : ctx.settings.debugChecks = true
  · replace rest := rest.ite_pos on
    obtain ⟨ok, rest⟩ := rest.newLabel_bind
    obtain ⟨i₁, rest⟩ := rest.emitTo_bind
    obtain ⟨i₂, rest⟩ := rest.emit_bind
    obtain ⟨here, rest⟩ := rest.bind_bind
    rw [here] at i₁
    exact .branchNonzero i₁ (by simp) (fun _ => h₁.countsRecord exits popped object away rest next)
      fun _ => .stop i₂ (by simp)
  · exact (h₁.countsRecord exits popped object away (rest.ite_neg on) next).le (by omega)

/-! ## The prologue -/

/-- From where the prologue goes on after a report, the stack is touched and the method locked. -/
theorem countsContinuation (h : a.Framed false m₀ v c m)
    (lockable : a.Lockable synchronized v.map m₀) {continuation : CodeLabel}
    [Taken continuation S T]
    (lay : Lays ⟨v.image.code, place⟩ ctx true K S (do
      Emit.bind continuation
      Emit.bangShadow false
      Emit.strb Register.zero (Emit.threadField ThreadBlock.doNotUnlock)
      if synchronized then Emit.lockMethod else Emit.checkUnsynchronized) q q' ())
    (next : ∀ (v' : Vm) c' m', v'.image = v.image → v'.map = v.map →
      a.Framed synchronized m₀ v' c' m' → Vm.Counts k .clearing Q turns (v'.moved q' c' m')) :
    Vm.Counts k .clearing Q (turns + 38 + 3 * ctx.settings.shadowPages.toNat) (v.moved q c m) := by
  obtain ⟨-, lay⟩ := lay.bind_bind
  obtain ⟨⟨⟩, q₁, bang, lay⟩ := lay.split
  obtain ⟨i, lay⟩ := lay.emit_bind
  refine h.countsBangShadow bang fun c₁ h₁ => h₁.countsThreadStore i (by decide) fun m₁ h₂ => ?_
  cases synchronized with
  | false =>
    rw [if_neg Bool.false_ne_true] at lay
    exact h₂.countsUnlocked lay fun c₂ h₃ => (next v c₂ m₁ rfl rfl h₃).le (by omega)
  | true =>
    rw [if_pos rfl] at lay
    exact h₂.countsLock exits popped lockable lay next

/-- The prologue leaves the method locked as it should be, whether an overflow is reported or
    not. -/
theorem countsPrologue (h : a.Framed false m₀ v c m)
    (lockable : a.Lockable synchronized v.map m₀) {overflow continuation : CodeLabel}
    [Known overflow K] [Known continuation K] [Taken continuation S T] {U : List CodeLabel}
    {r : UInt64}
    (lay : Lays ⟨v.image.code, place⟩ ctx true K S
      (Emit.prologue false synchronized overflow continuation) q q' ())
    (report : ctx.settings.countsInvocations = true →
      Lays ⟨v.image.code, place⟩ ctx true K U (Emit.reportOverflow continuation) (place overflow) r
        ())
    (next : ∀ (v' : Vm) c' m', v'.image = v.image → v'.map = v.map →
      a.Framed synchronized m₀ v' c' m' → Vm.Counts k .clearing Q turns (v'.moved q' c' m')) :
    Vm.Counts k .clearing Q (turns + 38 + 3 * ctx.settings.shadowPages.toNat + 32)
      (v.moved q c m) := by
  unfold Emit.prologue at lay
  obtain ⟨i₁, lay⟩ := lay.emit_bind
  obtain ⟨i₂, lay⟩ := lay.emit_bind
  replace lay := lay.settings_bind
  refine .movImm i₁ (by simp)
    ((h.setReg .scratch2 _ (by decide)).countsThreadStore i₂ (by decide) fun m₁ h₁ => ?_)
  by_cases counts : ctx.settings.countsInvocations = true
  · obtain ⟨⟨⟩, q₁, count, rest⟩ := (lay.ite_pos counts).split
    refine h₁.countsCount count (fun c₂ m₂ h₂ => ?_) fun c₂ m₂ h₂ => ?_
    · exact (h₂.countsContinuation exits popped lockable rest next).le (by omega)
    · refine h₂.countsReport exits popped (report counts) fun v' c₃ m₃ image map h₃ => ?_
      have here : place continuation = q₁ := rest.bind_bind.1
      rw [here]
      refine h₃.countsContinuation exits popped (map ▸ lockable) (image.symm ▸ rest)
        fun w c₄ m₄ image' map' => next w c₄ m₄ (image'.trans image) (map'.trans map)
  · exact (h₁.countsContinuation exits popped lockable (lay.ite_neg counts) next).le (by omega)

end
end Framed

/-! ## The entry -/

theorem Called.locals_toNat (h : a.Called v c m) :
    a.locals.toNat + 8 = a.operands.toNat + 8 * a.parameters.toNat := by
  have page := h.fenced.zoned.page
  obtain ⟨-, red⟩ := h.fenced.red
  have low := h.low
  have high := h.high
  have few := a.parameters.toNat_lt
  have limit := v.map.stackBase.toNat_lt
  have eight : (8 : UInt64).toNat = 8 := rfl
  have size : (a.parameters.toUInt64 * 8).toNat = 8 * a.parameters.toNat := by
    rw [UInt64.toNat_mul, UInt16.toNat_toUInt64, eight]
    omega
  have above : (a.operands + a.parameters.toUInt64 * 8).toNat =
      a.operands.toNat + 8 * a.parameters.toNat := by
    rw [toNat_add_of_lt (by omega), size]
  change v.map.stackLimit.toNat + 1024 ≤ v.map.redEnd.toNat at red
  have below := UInt64.toNat_sub_of_le (a.operands + a.parameters.toUInt64 * 8) 8
    (UInt64.le_iff_toNat_le.mpr (by omega))
  unfold locals
  omega

/-- What is locked is found after the other locals have been cleared, too. -/
theorem Called.lockable (h : a.Called v c m) (cleared : a.Cleared v.map m m')
    (locks : synchronized = true → a.Locks v.map m)
    (away : synchronized = true → a.object ≠ 0 → a.object.toNat + 8 ≤ v.map.stackLimit.toNat) :
    a.Lockable synchronized v.map m' := by
  have stack := h.fenced.zoned.ordered.stack
  have thread := h.fenced.zoned.ordered.thread
  have low := cleared.low
  have base := cleared.base
  have top := h.locals_toNat
  change v.map.stackLimit.toNat ≤ v.map.redEnd.toNat at stack
  change v.map.thread.toNat + Place.threadSize.toNat ≤ v.map.stackLimit.toNat at thread
  have same {j : Nat} (hj : j < v.map.thread.toNat) : byteAt m'.bytes j = byteAt m.bytes j :=
    cleared.changed.other j (by omega)
  have kept {j n : Nat} (below : j + n ≤ v.map.thread.toNat) :
      load m'.bytes j n = load m.bytes j n :=
    Memory.load_congr fun i _ last => same (by omega)
  have placed := h.recorded.method
  have placed' := h.recorded.constMethod
  refine ⟨h.recorded.congr fun j hj => same hj.1, fun yes => ?_, fun _ => by omega, away⟩
  cases locks yes with
  | receiver flags some object =>
    refine .receiver ((congrArg (· &&& Access.staticBit.toUInt64) (kept (by omega))).trans flags)
      some ((cleared.changed.agrees (.inr ?_)).load (Nat.le_refl _) (Nat.le_refl _) |>.trans object)
    omega
  | holder flags constants readable owner object =>
    have below := readable.1.1
    have below' := readable.2.1
    refine .holder (fun zero => flags ?_) ((kept (by omega)).trans constants) readable
      ((kept below).trans owner) ((kept below').trans object)
    rw [kept (by omega)] at zero
    exact zero

/-- The method has its frame when its first bytecode is dispatched, unless it is left before. -/
theorem Called.countsEnter {pop : UInt64} (h : a.Called v c' m₀) (cleared : a.Cleared v.map m₀ m)
    (lockable : a.Lockable synchronized v.map m)
    (exits : ∀ w, Left ctx.forwardException pop w → Q 0 w)
    (popped : ∀ l, ctx.popFrame = some l → place l = pop)
    (lay : Lays ⟨v.image.code, place⟩ ctx true K [] (Emit.enterFrame synchronized) q q' ())
    (thread : c.reg .thread = v.map.thread) (method : c.reg .method = a.method)
    (locals : c.reg .locals = a.locals) (sp : c.reg .sp = a.base &&& (-16))
    (next : ∀ (v' : Vm) c' m' K' S' p p', v'.image = v.image → v'.map = v.map →
      Lays ⟨v'.image.code, place⟩ ctx true K' S' (Emit.dispatchNext .none 0) p p' () →
      a.Framed synchronized m v' c' m' → Q 0 (v'.moved p c' m')) :
    Vm.Counts k .clearing Q (3 * ctx.settings.shadowPages.toNat + 120) (v.moved q c m) := by
  suffices enters : Vm.Counts k .clearing Q
      (0 + 25 + 4 + 38 + 3 * ctx.settings.shadowPages.toNat + 32 + 19 + 1) (v.moved q c m) from
    enters.le (by omega)
  unfold Emit.enterFrame Emit.loadDispatch at lay
  obtain ⟨i, lay⟩ := lay.emit_bind
  obtain ⟨⟨⟩, q₁, build, lay⟩ := lay.split
  obtain ⟨overflow, lay⟩ := lay.newLabel_bind
  obtain ⟨continuation, lay⟩ := lay.newLabel_bind
  obtain ⟨⟨⟩, q₂, begun, lay⟩ := lay.split
  obtain ⟨⟨⟩, q₃, verify, lay⟩ := lay.split
  obtain ⟨⟨⟩, q₄, notify, lay⟩ := lay.split
  obtain ⟨⟨⟩, q₅, dispatches, lay⟩ := lay.split
  obtain ⟨here, lay⟩ := lay.bind_bind
  replace lay := lay.settings_bind
  have report (counts : ctx.settings.countsInvocations = true) :
      Lays ⟨v.image.code, place⟩ ctx true (continuation :: overflow :: K) []
        (Emit.reportOverflow continuation) (place overflow) q' () := by
    have report := lay.ite_pos counts
    rwa [← show place overflow = _ from here] at report
  have same (r : Register) (other : r ≠ .dispatch) :
      (c.setReg .dispatch Place.activeTable).reg r = c.reg r := Cpu.reg_setReg_ne _ _ other
  refine .movImm i (by simp) (h.countsBuildFrame cleared build ((same _ (by decide)).trans thread)
    ((same _ (by decide)).trans method) ((same _ (by decide)).trans locals)
    (Cpu.reg_setReg_self _ _ (by decide)) ((same _ (by decide)).trans sp) fun c₁ m₁ framed => ?_)
  refine framed.countsPrologue exits popped lockable begun report fun v₂ c₂ m₂ image₂ map₂ h₂ => ?_
  refine h₂.countsVerify (image₂.symm ▸ verify) fun c₃ h₃ => ?_
  refine h₃.countsNotify exits popped (image₂.symm ▸ notify) fun v₄ c₄ m₄ image₄ map₄ h₄ => ?_
  have image : v₄.image = v.image := image₄.trans image₂
  exact .here (next v₄ c₄ m₄ _ _ q₄ q₅ image (map₄.trans map₂) (image.symm ▸ dispatches) h₄)

/-! ## What has been set up -/

/-- The first bytecode is about to be executed: all locals have their words, there are no operands,
    and what the caller has on its operand stack is as it was in the memory `m₀`. -/
structure SetUp (a : GuestCall) (synchronized : Bool) (m₀ : Guarded) (c : Cpu) (m : Guarded) :
    Prop where
  locals : c.reg .locals = a.locals
  arguments : ∀ i < a.parameters.toNat, load m.bytes (a.locals.toNat - 8 * i) 8 =
    load m₀.bytes (a.operands.toNat + 8 * (a.parameters.toNat - 1 - i)) 8
  zeros : ∀ i, a.parameters.toNat ≤ i → i < a.words →
    load m.bytes (a.locals.toNat - 8 * i) 8 = 0
  frame : c.reg .frame = a.frame
  operands : c.reg .operands = a.top synchronized
  top : load m.bytes (a.frame.toNat - 64) 8 = a.top synchronized
  /-- The record of the monitor is for the object. -/
  object : synchronized = true → load m.bytes (a.frame.toNat - 72) 8 = a.object
  bytecode : c.reg .bytecode = a.constMethod + ConstMethodRecord.code
  dispatch : c.reg .dispatch = Place.activeTable
  sp : c.reg .sp = a.sp synchronized
  caller : ∀ j, a.operands.toNat ≤ j → byteAt m.bytes j = byteAt m₀.bytes j

theorem Framed.setUp (h : a.Framed synchronized m v c m') (called : a.Called w c' m₀)
    (cleared : a.Cleared w.map m₀ m) : a.SetUp synchronized m₀ c m' := by
  have top := called.locals_toNat
  have base := cleared.base
  have caller (j : Nat) (hj : a.operands.toNat ≤ j) : byteAt m'.bytes j = byteAt m₀.bytes j :=
    (h.above j (by omega)).trans (cleared.changed.other j (.inr hj))
  refine {
    locals := h.locals
    arguments := fun i few => ?_
    zeros := fun i after few => ?_
    frame := h.frameRegister
    operands := h.operands
    top := h.topSlot
    object := h.object
    bytecode := h.bytecode
    dispatch := h.dispatch
    sp := h.sp
    caller }
  · have place : a.locals.toNat - 8 * i =
        a.operands.toNat + 8 * (a.parameters.toNat - 1 - i) := by omega
    rw [place]
    exact Memory.load_congr fun j low _ => caller j (by omega)
  · have count : a.words = a.parameters.toNat + a.extra := by
      unfold words extra
      omega
    have place : a.locals.toNat - 8 * i = a.base.toNat + 8 * (a.words - 1 - i) := by omega
    rw [place]
    refine (Memory.load_congr fun j low _ => h.above j (by omega)).trans ?_
    exact cleared.zero _ (by omega)

/-! ## How far the stack pointer lies below the operands of the caller -/

theorem toNat_activationWords (a : GuestCall) (synchronized : Bool) :
    (Frame.activationWords a.maxLocals a.parameters a.maxStack synchronized).toNat =
      12 + a.extra + (if synchronized then 2 else 0) + a.maxStack.toNat + 4 := by
  have few := a.maxLocals.toNat_lt
  have depth := a.maxStack.toNat_lt
  refine UInt64.toNat_ofNat_of_lt' ?_
  change _ < 2 ^ 64
  split <;> omega

/-- The entry goes down by the words that are counted, and by what it skips where it aligns the end
    of the locals and the end of the operands. -/
theorem toNat_depth (a : GuestCall) (synchronized : Bool) :
    (a.operands - a.sp synchronized).toNat =
      8 * (Frame.activationWords a.maxLocals a.parameters a.maxStack synchronized).toNat +
        a.base.toNat % 16 + 8 * (a.maxStack.toNat % 2) := by
  have few := a.maxLocals.toNat_lt
  have deep := a.maxStack.toNat_lt
  have less : a.extra ≤ a.maxLocals.toNat := Nat.sub_le ..
  have operands := a.operands.toNat_lt
  have extra : (a.extra.toUInt64 * 8).toNat = 8 * a.extra := by
    rw [UInt64.toNat_mul, UInt64.toNat_ofNat_of_lt' (by change _ < 2 ^ 64; omega)]
    change _ * 8 % _ = _
    omega
  have reserve : ((a.maxStack.toUInt64 + 4) * 8).toNat = 8 * (a.maxStack.toNat + 4) := by
    rw [UInt64.toNat_mul, UInt64.toNat_add, UInt16.toNat_toUInt64]
    change (_ + 4) % _ * 8 % _ = _
    omega
  -- The stack pointer may wrap around where the stack lies low, so all of it is said modulo.
  have base : a.base.toNat = (2 ^ 64 - 8 * a.extra + a.operands.toNat) % 2 ^ 64 := by
    rw [base, UInt64.toNat_sub, extra]
  have frame : a.frame.toNat = (2 ^ 64 - 32 + a.base.toNat / 16 * 16) % 2 ^ 64 := by
    rw [frame, UInt64.toNat_sub, toNat_and_neg_sixteen]
    rfl
  have bottom : (a.frame + Frame.monitorTop).toNat = (a.frame.toNat + (2 ^ 64 - 64)) % 2 ^ 64 :=
    UInt64.toNat_add ..
  have unlocked : (a.sp false).toNat =
      (2 ^ 64 - 8 * (a.maxStack.toNat + 4) + (a.frame + Frame.monitorTop).toNat) % 2 ^ 64 /
        16 * 16 := by
    change ((a.frame + Frame.monitorTop - (a.maxStack.toUInt64 + 4) * 8) &&& (-16)).toNat = _
    rw [toNat_and_neg_sixteen, UInt64.toNat_sub, reserve]
  have locked : (a.sp true).toNat = (2 ^ 64 - 16 + (a.sp false).toNat) % 2 ^ 64 :=
    UInt64.toNat_sub ..
  rw [toNat_activationWords, UInt64.toNat_sub]
  cases synchronized <;> simp only [Bool.false_eq_true, if_false, if_true] <;> omega

/-- At most one word for each of the two alignments is missing in the count. -/
theorem SetUp.depth_le (h : a.SetUp synchronized m₀ c m) (aligned : 8 ∣ a.operands.toNat) :
    (a.operands - c.reg .sp).toNat ≤
      8 * ((Frame.activationWords a.maxLocals a.parameters a.maxStack synchronized).toNat + 2) := by
  have depth := toNat_depth a synchronized
  have words : a.base.toNat % 8 = 0 := by
    have extra : (a.extra.toUInt64 * 8).toNat = a.extra.toUInt64.toNat * 8 % 2 ^ 64 :=
      UInt64.toNat_mul ..
    have limit := a.operands.toNat_lt
    rw [base, UInt64.toNat_sub, extra]
    omega
  rw [h.sp]
  omega

/-- The words that are counted are enough exactly where there is nothing to skip. -/
theorem SetUp.depth_le_iff (h : a.SetUp synchronized m₀ c m) :
    (a.operands - c.reg .sp).toNat ≤
        8 * (Frame.activationWords a.maxLocals a.parameters a.maxStack synchronized).toNat ↔
      16 ∣ a.base.toNat ∧ 2 ∣ a.maxStack.toNat := by
  have depth := toNat_depth a synchronized
  rw [h.sp]
  omega

/-- What the entry comes to, with the number of locals that have been cleared. The stub is where a
    stack overflow is thrown. -/
inductive Begun (a : GuestCall) (s : Settings) (synchronized : Bool) (stub forward pop : UInt64)
    (v : Vm) (c : Cpu) (m : Guarded) : Nat → Vm → Prop
  | setUp {w : Vm} {c' : Cpu} {m' : Guarded} {p q : UInt64} {place : CodeLabel → UInt64}
    {ctx : CodeContext} {K S : List CodeLabel} (fits : ¬ a.Refused s v.map c m)
    (dispatches : Lays ⟨w.image.code, place⟩ ctx true K S (Emit.dispatchNext .none 0) p q ())
    (setUp : a.SetUp synchronized m c' m') :
    Begun a s synchronized stub forward pop v c m a.extra (w.moved p c' m')
  | refused {c' : Cpu} (beyond : a.Refused s v.map c m) :
    Begun a s synchronized stub forward pop v c m 0 (v.moved stub c' m)
  | left {w : Vm} (fits : ¬ a.Refused s v.map c m) (left : Left forward pop w) :
    Begun a s synchronized stub forward pop v c m a.extra w

/-- In generated code there is a marked store for each of the two normal entries. Whenever a method
    is called, its entry executes the store as often as it has locals besides its parameters, if it
    gets to the first bytecode. -/
theorem begins_of_generate {s : Settings} {i : Image} (generated : Image.generate s = .ok i)
    (pages : s.shadowPages.toNat < 2 ^ 54) (synchronized : Bool) :
    ∃ k, (∃ b ∈ i.code.blobs, (Emit.clearingMark synchronized, k) ∈ b.marks) ∧
      ∀ (a : GuestCall) (v : Vm) (c : Cpu) (m : Guarded), Image.Extended s v.image →
        a.Called v c m → (synchronized = true → a.Locks v.map m) →
        (synchronized = true → a.object ≠ 0 → a.object.toNat + 8 ≤ v.map.stackLimit.toNat) →
        v.Quiet → ∀ steps watched,
        Vm.Leads (fun w => w.Stuck ∨ Vm.Counted k (hits watched k)
            (a.Begun s synchronized i.stubs.throwStackOverflow i.stubs.forwardException
              i.exceptions.popFrame v c m) w)
          (3 * a.extra + 3 * s.shadowPages.toNat + 145)
          ((v.moved (v.image.methodEntry (.normalOf synchronized)) c m).counted steps watched) := by
  obtain ⟨place, l, q₁, k, q₂, q₃, popFrame, opening, clears, entering, marked⟩ :=
    Image.normalEntry_of_generate generated pages synchronized
  refine ⟨k, marked, fun a v c m extended called locks away quiet steps watched => ?_⟩
  obtain ⟨i₀, same, -, -, -, fetches⟩ := extended.generated.image
  cases generated.symm.trans same
  have entry : v.image.methodEntry (.normalOf synchronized) =
      i.methodEntry (.normalOf synchronized) := by
    rw [Image.methodEntry, Image.methodEntry, extended.entries i generated]
  rw [entry]
  have opening' := opening.mono (G := ⟨v.image.code, place⟩) rfl fetches
  have entering' := entering.mono (G := ⟨v.image.code, place⟩) rfl fetches
  have clears' : Clears ⟨v.image.code, place⟩ q₁ k q₂ := {
    none := fetches _ _ clears.none
    first := clears.first
    store := fetches _ _ clears.store
    count := fetches _ _ clears.count
    again := fetches _ _ clears.again
    last := clears.last }
  suffices counts : Vm.Counts k .clearing (a.Begun s synchronized i.stubs.throwStackOverflow
      i.stubs.forwardException i.exceptions.popFrame v c m)
      (3 * s.shadowPages.toNat + 120 + 3 * a.extra + 1 + 24)
      (v.moved (i.methodEntry (.normalOf synchronized)) c m) from
    (counts.le (by omega)) clears'.store quiet steps watched
  refine called.countsOpen opening' (fun c' beyond => .here (.refused beyond))
    fun c₁ fits opens => ?_
  refine called.countsClear opens clears' fun c₂ m₂ same cleared => ?_
  refine called.countsEnter cleared (called.lockable cleared locks away)
    (fun w (left : Left _ i.exceptions.popFrame w) => ?_) (fun l' hl => ?_) entering'
    ((same _ (by decide) (by decide)).trans opens.thread)
    ((same _ (by decide) (by decide)).trans opens.method)
    ((same _ (by decide) (by decide)).trans opens.locals)
    ((same _ (by decide) (by decide)).trans opens.sp)
    fun v' c' m' K S p p' _ _ dispatches framed => ?_
  · rw [Nat.zero_add]
    exact .left fits left
  · rw [← Option.some.inj hl]
    exact popFrame
  · rw [Nat.zero_add]
    exact .setUp fits dispatches (framed.setUp called cleared)

/-! ## A synchronized method with two locals besides its receiver -/

namespace Receiver

def call : GuestCall where
  method := 0x21000
  constMethod := 0x21040
  operands := 0x860000
  parameters := 1
  maxLocals := 3
  maxStack := 2
  object := 0x500000

def blank : Guarded := World.twoClasses.store.mem

/-- The records of the method, and the receiver on the stack of the caller. -/
def memory : Guarded :=
  (((((blank.put 0x21000 8 0x21040).put 0x21008 4 0).put 0x21048 2 1).put 0x2104a 2 3).put 0x2104c 2
    2).put 0x860000 8 0x500000

def cpu : Cpu :=
  [(Register.thread, (MemoryMap.ofSettings {}).thread), (.method, call.method),
    (.operands, call.operands), (.sp, call.operands)].foldl (fun c (r, n) => c.setReg r n) Cpu.zero

def vm (i : Image) : Vm :=
  { (default : Vm) with
    map := .ofSettings {}
    image := i
    processor := { maxSteps := 50000000 }
    world := .twoClasses }

theorem alike : blank.Alike memory := .put (.put (.put (.put (.put (.put (.refl _))))))

theorem zoned : (MemoryMap.ofSettings {}).Zoned :=
  MemoryMap.zoned (by decide) ⟨by decide, by decide⟩

theorem inside : (MemoryMap.ofSettings {}).stackBase.toNat ≤
    (Guarded.zeros (MemoryMap.ofSettings {}).size).bytes.size := by
  change _ ≤ (Memory.zeros _).size
  rw [Memory.size_zeros]
  decide

theorem fenced (i : Image) : ((vm i).withMemory memory).Fenced := by
  have metaspace : World.twoClasses.classes.metaspace.stop.toNat ≤
      (MemoryMap.ofSettings {}).thread.toNat := by decide
  have heap : World.twoClasses.store.heap.region.stop.toNat ≤
      (MemoryMap.ofSettings {}).thread.toNat := by decide
  have block : (Vm.guarded (.zeros (MemoryMap.ofSettings {}).size) (.ofSettings {})).Clear
      (MemoryMap.ofSettings {}).thread.toNat
      ((MemoryMap.ofSettings {}).thread.toNat + Place.threadSize.toNat) :=
    Vm.guarded_clear Vm.ordered_default (by decide) (by decide)
  have guards : (MemoryMap.ofSettings {}).Guards 1 blank :=
    (Armed.default (m := .zeros (MemoryMap.ofSettings {}).size) rfl inside).guards_eq
  have before : ((vm i).withMemory blank).Fenced := {
    mapped := ⟨Vm.ordered_default, World.twoClasses_booted, metaspace, heap, block⟩
    zoned
    size := Memory.size_zeros _
    guards := ⟨1, guards⟩ }
  exact before.alike alike

theorem open_low {m : Guarded} {p w : UInt64} (alike : blank.Alike m) (low : 0x1000 ≤ p.toNat)
    (high : p.toNat + w.toNat ≤ 0x821000) : m.Open p w := by
  have clear : blank.Clear 0x1000 0x821000 :=
    Vm.guarded_clear Vm.ordered_default (by decide) (by decide)
  exact (clear.congr alike.size alike.guards).open low high

theorem recorded : call.Recorded (.ofSettings {}) memory where
  method := by decide
  constMethod := by decide
  apart := by decide
  code := by
    change load memory.bytes (0x21000 : UInt64).toNat 8 = _
    unfold memory
    rw [Guarded.load_put_of_disjoint (by decide), Guarded.load_put_of_disjoint (by decide),
      Guarded.load_put_of_disjoint (by decide), Guarded.load_put_of_disjoint (by decide),
      Guarded.load_put_of_disjoint (by decide)]
    exact Guarded.load_put (open_low (.refl _) (by decide) (by decide))
  parameterWords := by
    change load memory.bytes (0x21048 : UInt64).toNat 2 = _
    unfold memory
    rw [Guarded.load_put_of_disjoint (by decide), Guarded.load_put_of_disjoint (by decide),
      Guarded.load_put_of_disjoint (by decide)]
    exact Guarded.load_put_half (open_low (.put (.put (.refl _))) (by decide) (by decide))
  maxLocals := by
    change load memory.bytes (0x2104a : UInt64).toNat 2 = _
    unfold memory
    rw [Guarded.load_put_of_disjoint (by decide), Guarded.load_put_of_disjoint (by decide)]
    exact Guarded.load_put_half (open_low (.put (.put (.put (.refl _)))) (by decide) (by decide))
  maxStack := by
    change load memory.bytes (0x2104c : UInt64).toNat 2 = _
    unfold memory
    rw [Guarded.load_put_of_disjoint (by decide)]
    exact Guarded.load_put_half
      (open_low (.put (.put (.put (.put (.refl _))))) (by decide) (by decide))

theorem locks : call.Locks (.ofSettings {}) memory := by
  refine .receiver ?_ (by decide) ?_
  · have flags : load memory.bytes (0x21008 : UInt64).toNat 4 = 0 := by
      unfold memory
      rw [Guarded.load_put_of_disjoint (by decide), Guarded.load_put_of_disjoint (by decide),
        Guarded.load_put_of_disjoint (by decide), Guarded.load_put_of_disjoint (by decide)]
      exact Guarded.load_put_word (open_low (.put (.refl _)) (by decide) (by decide))
    change load memory.bytes (0x21008 : UInt64).toNat 4 &&& _ = 0
    rw [flags]
    decide
  · change load memory.bytes (0x860000 : UInt64).toNat 8 = _
    have clear : blank.Clear 0x824000 0x861000 :=
      (Armed.default (m := .zeros (MemoryMap.ofSettings {}).size) rfl inside).clear
    exact Guarded.load_put (clear.put.put.put.put.put.open (by decide) (by decide))

theorem called (i : Image) : call.Called (vm i) cpu memory where
  fenced := fenced i
  thread := show cpu.reg .thread = (MemoryMap.ofSettings {}).thread by decide
  method := by decide
  operands := by decide
  low := show (MemoryMap.ofSettings {}).redEnd.toNat ≤ call.operands.toNat by decide
  high := show call.operands.toNat + 8 * call.parameters.toNat ≤
    (MemoryMap.ofSettings {}).stackBase.toNat by decide
  recorded := recorded

end Receiver

/-- The receiver is locked, and two locals are cleared. -/
theorem begins_receiver : ∃ i k, Image.generate {} = .ok i ∧
    Vm.Leads (fun w => w.Stuck ∨ Vm.Counted k (hits [(k, 0)] k)
        (Receiver.call.Begun {} true i.stubs.throwStackOverflow i.stubs.forwardException
          i.exceptions.popFrame (Receiver.vm i) Receiver.cpu Receiver.memory) w)
      163 (((Receiver.vm i).moved (i.methodEntry .normalSynchronized) Receiver.cpu
        Receiver.memory).counted 0 [(k, 0)]) := by
  obtain ⟨i, generated⟩ := Image.generate_ok (s := {}) (by decide)
  obtain ⟨k, -, begins⟩ := begins_of_generate generated (by decide) true
  exact ⟨i, k, generated, begins Receiver.call (Receiver.vm i) Receiver.cpu Receiver.memory
    (Image.extended_of_generate generated (by decide)) (Receiver.called i)
    (fun _ => Receiver.locks)
    (fun _ _ => show 0x500008 ≤ (MemoryMap.ofSettings {}).stackLimit.toNat by decide)
    rfl 0 [(k, 0)]⟩

end GuestCall
end TemplateVm
