import TemplateVm.Proofs.Activation.Returning
import TemplateVm.Proofs.Loading.Records

set_option autoImplicit false
set_option synthInstance.maxSize 100000

/-!
# Popped frames

A debugger that is told about a method at its entry can have the frame popped. The activation is
removed without another word to the debugger, and the caller executes the same call again, with the
operands, the variables and the heap of the first time.
-/
namespace TemplateVm

open Memory (Guarded load byteAt)
open Guest Emit

/-! ## What popping a frame can change -/

/-- Two memories that differ at most in the thread's words up to the one about the lock, and in the
    stack below what the frame has saved for its sender. -/
structure Activation.Encloses (a : Activation) (m m' : Guarded) : Prop where
  size : m'.bytes.size = m.bytes.size
  guards : m'.guards = m.guards
  other : ∀ j, j < a.thread.toNat + 8 ∨ a.thread.toNat + 53 ≤ j ∧ j < a.low ∨
    a.frame.toNat - 8 ≤ j → byteAt m'.bytes j = byteAt m.bytes j

namespace Activation.Encloses

variable {a : Activation} {m m' m'' : Guarded} {lo hi s t : Nat}

theorem of_confined (h : a.Confined m m') : a.Encloses m m' :=
  ⟨h.size, h.guards, fun j hj => h.other j (by omega)⟩

theorem of_changed (h : m.Changed m' lo hi) (within : a.thread.toNat + 8 ≤ lo ∧
    hi ≤ a.thread.toNat + 53 ∨ a.low ≤ lo ∧ hi ≤ a.frame.toNat - 8)
    (low : a.thread.toNat + 0x1000 ≤ a.low) (top : a.low ≤ a.frame.toNat - 8) : a.Encloses m m' :=
  ⟨h.size, h.guards, fun j hj => h.other j (by omega)⟩

theorem trans (h : a.Encloses m m') (h' : a.Encloses m' m'') : a.Encloses m m'' where
  size := h'.size.trans h.size
  guards := h'.guards.trans h.guards
  other j hj := (h'.other j hj).trans (h.other j hj)

theorem agrees (h : a.Encloses m m') (away : t ≤ a.thread.toNat + 8 ∨
    a.thread.toNat + 53 ≤ s ∧ t ≤ a.low ∨ a.frame.toNat - 8 ≤ s) : m.Agrees m' s t :=
  fun j _ _ => h.other j (by omega)

end Activation.Encloses

variable {P : Vm → Prop} {turns : Nat} {v : Vm} {q q' : UInt64} {c c₀ : Cpu} {m m' m₀ : Guarded}
  {a d : Activation} {b b' : Program} {bcp bcp' p p' : UInt64} {x y : Contents}
  {place : CodeLabel → UInt64} {ctx : CodeContext} {inStub : Bool} {K S : List CodeLabel}
  {id : MethodId} {n l s : Nat} {sender : Sender} {op : Bytecode.Operation}

/-! ## The request -/

namespace Vm

variable {steps : UInt64} {watched : List (UInt64 × UInt64)}

/-- A frame is marked to be popped. -/
theorem requestPop_ok (ok : m.Open (v.map.thread + ThreadBlock.framePop) 4)
    (none : load m.bytes (v.map.thread + ThreadBlock.framePop).toNat 4 = 0) :
    requestPop ((v.moved q c m).counted steps watched) = .ok ()
      ((v.moved q c (m.put (v.map.thread + ThreadBlock.framePop) 4 1)).counted steps watched) := by
  have four : (4 : UInt64).toNat = 4 := rfl
  refine onThread_ok ?_
  refine (bind_ok (m := ThreadBlock.pop ⟨v.map.thread⟩) (bind_ok ok.readA)).trans ?_
  rw [four, none]
  exact ok.write

/-- The debugger wants the frame popped. -/
theorem notify_pops {notice : Notice} {f : Frame}
    (frame : lastFrame ((v.moved q c m).counted steps watched) =
      .ok f ((v.moved q c m).counted steps watched))
    (method : methodOf f ((v.moved q c m).counted steps watched) =
      .ok id ((v.moved q c m).counted steps watched))
    (wants : (notice (v.world.classes.member id) v.hooks).1 = true)
    (ok : m.Open (v.map.thread + ThreadBlock.framePop) 4)
    (none : load m.bytes (v.map.thread + ThreadBlock.framePop).toNat 4 = 0) :
    notify notice ((v.moved q c m).counted steps watched) = .ok () (((v.told notice id).moved q c
      (m.put (v.map.thread + ThreadBlock.framePop) 4 1)).counted steps watched) := by
  have decided : consult (notice (v.world.classes.member id))
      ((v.moved q c m).counted steps watched) =
        .ok true (((v.told notice id).moved q c m).counted steps watched) := by
    rw [← wants]
    rfl
  exact (bind_ok frame).trans <| (bind_ok method).trans <| (bind_ok (m := classes) rfl).trans <|
    (bind_ok decided).trans <| requestPop_ok (v := v.told notice id) ok none

end Vm

/-- The service that tells about an entry marks the frame. -/
theorem Stands.runPopNotice (h : Stands d b bcp p x v c m)
    (known : b.classes.methodAt? d.method = some id)
    (wants : (v.hooks.methodEntry (v.world.classes.member id)).1 = true)
    (none : load m.bytes (d.thread.toNat + 48) 4 = 0)
    (sp : load m.bytes (d.thread.toNat + 16) 8 = p)
    (fp : load m.bytes (d.thread.toNat + 24) 8 = d.frame)
    (next : ∀ m', m.Changed m' (d.thread.toNat + 40) (d.thread.toNat + 52) →
      load m'.bytes (d.thread.toNat + 48) 4 = 1 →
      Vm.Arrives P turns ((v.told .entry id).moved (c.reg .link) c m')) :
    Vm.Arrives P (turns + 1) (v.moved Service.postMethodEntry.address c m) := by
  have four : (4 : UInt64).toNat = 4 := rfl
  have offset : ThreadBlock.framePop.toNat = 48 := rfl
  refine h.runFrameService rfl known sp fp fun m₁ h₁ changed₁ frame method => ?_
  obtain ⟨pop, ok⟩ := h₁.fits.threadField (k := ThreadBlock.framePop) (w := 4) (by decide)
  rw [offset] at pop
  have none₁ : load m₁.bytes (d.thread + ThreadBlock.framePop).toNat 4 = 0 := by
    rw [pop, (changed₁.agrees (s := d.thread.toNat + 48) (t := d.thread.toNat + 52)
      (by omega)).load (Nat.le_refl _) (Nat.le_refl _), none]
  have changed₂ := Guarded.changed_put m₁ (d.thread + ThreadBlock.framePop) 4 1
  have marked := Guarded.load_put_word (v := 1) ok
  rw [pop] at marked
  have own := h.inhabits.thread
  have performs : v.Performs (v.told .entry id) .postMethodEntry c m₁
      (m₁.put (d.thread + ThreadBlock.framePop) 4 1) := by
    rw [← own] at ok none₁ ⊢
    have wants : (Notice.entry (v.world.classes.member id) v.hooks).1 = true := wants
    exact ⟨fun steps watched => Vm.notify_pops (frame steps watched) (method steps watched) wants ok
      none₁, rfl, ⟨fun quiet => quiet, rfl, rfl⟩, (Guarded.changed_put m₁ _ 4 1).size,
      (Guarded.changed_put m₁ _ 4 1).guards⟩
  refine ⟨_, _, performs, fun m' changed₃ => next m' ?_ ?_⟩
  · exact (changed₁.mono (by omega) (by omega)).trans <|
      (changed₂.mono (by omega) (by omega)).trans <| changed₃.mono (by omega) (by omega)
  · exact ((changed₃.agrees (s := d.thread.toNat + 48) (t := d.thread.toNat + 52)
      (by omega)).load (Nat.le_refl _) (Nat.le_refl _)).trans marked

/-- A frame that is marked is popped when the guest goes on. -/
theorem Activation.Placed.runResumePopping (h : d.Placed l s c m)
    (marked : load m.bytes (d.thread.toNat + 48) 4 = 1) {pop : CodeLabel}
    (set : ctx.popFrame = some pop) {result : Option Register}
    (lay : Lays ⟨v.image.code, place⟩ ctx inStub K S (resumeGuest result) q q' ())
    (next : ∀ c' m', c.Spares c' [.scratch1] →
      m.Changed m' (d.thread.toNat + 16) (d.thread.toNat + 40) →
      Vm.Arrives P turns (v.moved (place pop) c' m')) :
    Vm.Arrives P (turns + 11) (v.moved q c m) := by
  have asks : ThreadBlock.AsksPop ⟨d.thread⟩ m := by constructor <;> rw [marked] <;> decide
  have goes : ¬ (ctx.popFrame = none ∨ ¬ ThreadBlock.AsksPop ⟨d.thread⟩ m) := by simp [set, asks]
  refine Vm.runAfterService h.thread (fun _ _ inside => h.fits.threadField inside) lay
    (fun c₁ m₁ l own _ => ?_) (fun _ _ stays => absurd stays goes)
    fun _ _ _ stays => absurd stays goes
  cases set.symm.trans own
  exact next c₁ m₁

/-! ## The code that pops a frame -/

namespace Emit

/-- The operands are given up, and the thread is marked as popping. -/
def beginPop : Emit Unit := do
  emptyOperands
  ldrw Register.x3 (threadField ThreadBlock.framePop)
  or Register.x3 Register.x3 FramePop.processingBit.toUInt64
  strw Register.x3 (threadField ThreadBlock.framePop)

/-- The frame of a method that the host called is popped. -/
def popForHost : Emit Unit := do
  loadMethod Register.x0
  ldr Register.x0 (Register.at .x0 MethodRecord.constMethod)
  ldrh Register.x0 (Register.at .x0 ConstMethodRecord.parameterWords)
  lsl Register.x1 Register.x0 3
  restoreLocals
  sub Register.x2 Register.locals Register.x1
  add Register.x2 Register.x2 8
  callLeaf .popframePreserveArguments [.thread, .x1, .x2]
  removeActivation .none .silent false
  movImm Register.scratch1 FramePop.forceReexecutionBit.toUInt64
  strw Register.scratch1 (threadField ThreadBlock.framePop)
  ret Register.link

/-- The caller executes its call again. -/
def reexecute : Emit Unit := do
  ldr Register.x2 (frameSlot Frame.lastSp)
  callLeaf .popframeMoveArguments [.thread, .operands, .x2]
  restoreCaller
  loadDispatch
  strw Register.zero (threadField ThreadBlock.framePop)
  dispatchNext .none 0

theorem popFrameCode_eq (here : CodeLabel) : ExceptionEntries.popFrameCode here = (do
    Emit.bind here
    beginPop
    let interpreted ← newLabel
    ldr Register.x0 (frameSlot Frame.returnAddress)
    callLeaf .interpreterContains [.x0]
    cbnz Register.x0 interpreted
    popForHost
    Emit.bind interpreted
    removeActivation .none .silent false
    reexecute) := by
  simp only [ExceptionEntries.popFrameCode, beginPop, popForHost, reexecute, restoreCaller,
    bind_assoc]

end Emit

namespace Orderly

variable {flag : Bool}

instance : Orderly ctx flag K S S 8 beginPop := by
  unfold beginPop
  exact upto inferInstance (by decide)

instance : Orderly ctx flag K S S 400 popForHost := by
  unfold popForHost
  exact upto inferInstance (by decide)

instance : Orderly ctx flag K S S 40 reexecute := by
  unfold reexecute
  exact upto inferInstance (by decide)

end Orderly

theorem Activation.Placed.runBeginPop (h : d.Placed l s c m) (unlocked : d.Unlocked n m)
    (lay : Lays ⟨v.image.code, place⟩ ctx inStub K S beginPop q q' ())
    (next : ∀ c' m', c.Spares c' [.operands, .x3] → d.Encloses m m' → d.Unlocked n m' →
      Vm.Arrives P turns (v.moved q' c' m')) : Vm.Arrives P (turns + 5) (v.moved q c m) := by
  unfold beginPop emptyOperands at lay
  obtain ⟨⟨⟩, r, emptied, lay⟩ := lay.split
  obtain ⟨i₁, emptied⟩ := emptied.emit_bind
  obtain ⟨i₂, rfl⟩ := emptied.emit
  obtain ⟨i₃, lay⟩ := lay.emit_bind
  obtain ⟨i₄, lay⟩ := lay.emit_bind
  obtain ⟨i₅, rfl⟩ := lay.emit
  have heap := h.fits.heap
  have low := h.fits.thread
  have operands := h.fits.operands
  have top := h.fits.top
  have four : Width.word.bytes.toNat = 4 := rfl
  have offset : ThreadBlock.framePop.toNat = 48 := rfl
  have popAt := (h.fits.threadField (k := ThreadBlock.framePop) (w := 4) (by decide)).1
  have spares₁ := (Cpu.Spares.refl c [.operands, .x3]).setReg (r := .operands) (by simp) d.top
  refine h.runFrameLoad i₁ (by decide) (by decide) unlocked.top <|
    (h.spares spares₁ (by decide) (by decide)).runFrameStore i₂ (by decide) (by decide)
      fun changed₁ => ?_
  generalize m.put _ 8 _ = m₁ at changed₁ ⊢
  change m.Changed m₁ (d.frame.toNat - 16) (d.frame.toNat - 16 + 8) at changed₁
  have spares₂ := spares₁.setReg (r := .x3) (by simp)
    (load m₁.bytes (d.thread.toNat + 48) 4)
  refine ((h.changed changed₁).spares spares₁ (by decide) (by decide)).runThreadLoad i₃ (by decide)
    rfl (.binary i₄ ?_)
  generalize hw : Binary.apply _ _ .or = word
  have spares₃ := spares₂.setReg (r := .x3) (by simp) word
  refine ((h.changed changed₁).spares spares₃ (by decide) (by decide)).runThreadStore i₅ (by decide) ?_
  have changed₂ := Guarded.changed_put m₁ (d.thread + ThreadBlock.framePop) Width.word.bytes word
  rw [Cpu.reg_setReg_self _ _ (by decide)]
  refine next _ _ spares₃ ((Encloses.of_changed changed₁ (by omega) low (by omega)).trans
    (.of_changed changed₂ (by omega) low (by omega)))
    ((unlocked.changed changed₁ (by omega) (.inr (by omega))).changed changed₂ (by omega)
      (.inl (by omega)))

/-- The machine is asked whether the frame returns to a guest method. -/
theorem Vm.runAskInterpreted (inside : v.image.contains (c.reg .x0) = true)
    (lay : Lays ⟨v.image.code, place⟩ ctx inStub K S (callLeaf .interpreterContains [.x0]) q q' ())
    (next : ∀ c', c.Spares c' [.x0, .scratch1, .link] → c'.reg .x0 = 1 →
      Vm.Arrives P turns (v.moved q' c' m)) : Vm.Arrives P (turns + 11) (v.moved q c m) := by
  refine Vm.runCallLeaf lay ?_
  have passed : c.passed (Register.arguments.zip [.x0]) = c := Cpu.setReg_reg c .x0
  rw [passed]
  generalize hc : Cpu.setReg _ .link q' = c₁
  have spares : c.Spares c₁ [.x0, .scratch1, .link] := hc ▸
    ((Cpu.Spares.refl c _).setReg (by simp) _).setReg (by simp) _
  have asked : c₁.reg .x0 = c.reg .x0 := by
    rw [← hc, Cpu.reg_setReg_ne _ _ (by decide), Cpu.reg_setReg_ne _ _ (by decide)]
  have returns : c₁.reg .link = q' := hc ▸ Cpu.reg_setReg_self _ _ (by decide)
  refine .leafResult (n := 1) rfl (fun steps watched => ?_) ?_
  · have answer : (v.image.contains (c₁.reg .x0)).toUInt64 = 1 := by
      rw [asked, inside]
      rfl
    rw [← answer]
    rfl
  · rw [returns]
    exact next _ (spares.setReg (r := .x0) (by simp) 1) (Cpu.reg_setReg_self _ _ (by decide))

/-- Arguments that are where the caller wants them are not moved. -/
theorem Vm.movePoppedArguments_ok {o : Opcode} {fp cache : UInt64} {index : Nat} {width : UInt64}
    {steps : UInt64} {watched : List (UInt64 × UInt64)} (frame : c.reg .frame = fp)
    (method : methodOf ⟨fp⟩ ((v.moved q c m).counted steps watched) =
      .ok id ((v.moved q c m).counted steps watched))
    (bytecodeOk : m.Open (fp + Frame.bytecode) 8)
    (bytecode : load m.bytes (fp + Frame.bytecode).toNat 8 = bcp) (ok : m.Open bcp 1)
    (opcode : load m.bytes bcp.toNat 1 = o.byte.toUInt64)
    (wide : width = if o = .invokedynamic then 4 else 2) (operandOk : m.Open (bcp + 1) width)
    (operand : (load m.bytes (bcp + 1).toNat width.toNat).toNat = index)
    (holder : (v.world.classes.get (v.world.classes.method id).holder).cacheAddress = cache)
    (entryOk : m.Open (cache + CacheRecord.entryField index.toUInt64 CacheRecord.flags) 8) :
    movePoppedArguments p p ((v.moved q c m).counted steps watched) =
      .ok () ((v.moved q c m).counted steps watched) := by
  have eight : (8 : UInt64).toNat = 8 := rfl
  have one : (1 : UInt64).toNat = 1 := rfl
  have read : (do
      let bcp ← Frame.read ⟨fp⟩ Frame.bytecode
      let byte ← Guarded.readA bcp 1
      pure (bcp, byte)) m = .ok (bcp, o.byte.toUInt64) m := by
    refine (bind_ok (m := Frame.read ⟨fp⟩ Frame.bytecode) bytecodeOk.readA).trans ?_
    rw [eight, bytecode]
    refine (bind_ok ok.readA).trans ?_
    rw [one, opcode]
    rfl
  have current : reg .frame ((v.moved q c m).counted steps watched) =
      .ok fp ((v.moved q c m).counted steps watched) := by
    rw [← frame]
    rfl
  have known : Opcode.ofByte? o.byte.toUInt64.toUInt8 = some o := by
    rw [UInt8.toUInt8_toUInt64, Opcode.ofByte?_byte]
  have indexed : poolIndex o bcp ((v.moved q c m).counted steps watched) =
      .ok index ((v.moved q c m).counted steps watched) := by
    unfold poolIndex
    rw [← wide, ← operand]
    exact bind_ok (onMemory_ok operandOk.readA)
  unfold movePoppedArguments
  refine (bind_ok current).trans <| (bind_ok method).trans <| (bind_ok (onMemory_ok read)).trans ?_
  simp only [known]
  refine (bind_ok indexed).trans <| (bind_ok (m := classes) rfl).trans ?_
  have table : ((v.moved q c m).counted steps watched).world.classes = v.world.classes := rfl
  simp only [table, holder, ne_eq, not_true_eq_false, false_and, ↓reduceIte]
  exact onMemory_ok ((bind_ok entryOk.readA).trans rfl)

/-- The arguments of the call stay where they are. -/
theorem Vm.runMoveArguments
    (performed : ∀ c' steps watched, c.Spares c' [.x0, .x1, .x2, .scratch1, .link] →
      movePoppedArguments (c.reg .operands) (c.reg .x2)
        ((v.moved Service.popframeMoveArguments.address c' m).counted steps watched) =
          .ok () ((v.moved Service.popframeMoveArguments.address c' m).counted steps watched))
    (lay : Lays ⟨v.image.code, place⟩ ctx inStub K S
      (callLeaf .popframeMoveArguments [.thread, .operands, .x2]) q q' ())
    (next : ∀ c', c.Spares c' [.x0, .x1, .x2, .scratch1, .link] →
      Vm.Arrives P turns (v.moved q' c' m)) :
    Vm.Arrives P (turns + 11) (v.moved q c m) := by
  refine Vm.runCallLeaf lay ?_
  have passed : c.passed (Register.arguments.zip [.thread, .operands, .x2]) =
      (c.setReg .x0 (c.reg .thread)).setReg .x1 (c.reg .operands) := by
    change (((c.setReg .x0 (c.reg .thread)).setReg .x1 ((c.setReg .x0 (c.reg .thread)).reg
      .operands)).setReg .x2 (Cpu.reg _ .x2)) = _
    rw [Cpu.setReg_reg, Cpu.reg_setReg_ne _ _ (by decide)]
  rw [passed]
  generalize hc : Cpu.setReg _ .link q' = c₁
  have spares : c.Spares c₁ [.x0, .x1, .x2, .scratch1, .link] := hc ▸
    ((((Cpu.Spares.refl c _).setReg (by simp) _).setReg (by simp) _).setReg (by simp) _).setReg
      (by simp) _
  have source : c₁.reg .x1 = c.reg .operands := by
    rw [← hc, Cpu.reg_setReg_ne _ _ (by decide), Cpu.reg_setReg_ne _ _ (by decide),
      Cpu.reg_setReg_self _ _ (by decide)]
  have target : c₁.reg .x2 = c.reg .x2 := by
    rw [← hc]
    simp +decide only [Cpu.reg_setReg, ↓reduceIte]
  have returns : c₁.reg .link = q' := hc ▸ Cpu.reg_setReg_self _ _ (by decide)
  refine .leaf rfl (fun steps watched => ?_) ?_
  · change movePoppedArguments (c₁.reg .x1) (c₁.reg .x2) _ = _
    rw [source, target]
    exact performed c₁ steps watched spares
  · rw [returns]
    exact next c₁ spares

/-- The service finds the call of the caller, whose arguments are where they belong. -/
theorem Stands.movePoppedArguments {words : UInt64} {bytes index : Nat}
    (caller : Stands a b bcp p x v c₀ m₀) (enclosed : d.Encloses m₀ m) (below : d.Below a p)
    (hm : op ∈ Bytecode.decode b.code) (here : bcp = a.code + op.bci.toUInt64)
    (suspended : a.Suspended bcp p m) (resumable : a.Resumable bcp words bytes index m₀)
    (wide : bytes = if op.opcode = .invokedynamic then 4 else 2)
    (holder : ∀ id, b.classes.methodAt? a.method = some id →
      (b.classes.get (b.classes.method id).holder).cacheAddress = a.cache)
    (frame : c.reg .frame = a.frame) (steps : UInt64) (watched : List (UInt64 × UInt64)) :
    Vm.movePoppedArguments p p ((v.moved q c m).counted steps watched) =
      .ok () ((v.moved q c m).counted steps watched) := by
  obtain ⟨id, known, -⟩ := caller.methodOf
  obtain ⟨_, fetched⟩ := caller.fetched hm here
  have own := below.thread
  have callee := below.frame
  have bounds := caller.bounds
  have top := caller.top
  have fits := caller.fits
  have records := fits.records
  have heap := fits.heap
  have room := fits.thread
  have operands := fits.operands
  have above := fits.top
  have locals := fits.frame
  have start := fetched.above
  have stop := fetched.below
  have length := Bytecode.length_pos op.opcode
  have cache := caller.loaded.cacheAbove
  have entry := resumable.entry
  have read := resumable.below
  rw [Activation.entry] at entry
  have bound := a.heap.toNat_lt
  have eight : (8 : UInt64).toNat = 8 := rfl
  have one : (1 : UInt64).toNat = 1 := rfl
  have width : (if op.opcode = .invokedynamic then 4 else 2 : UInt64).toNat = bytes := by
    rw [wide]
    split <;> rfl
  have kept : m₀.Agrees m 0x1000 a.heap.toNat := enclosed.agrees (.inl (by rw [own]; omega))
  have fits' := fits.congr enclosed.size enclosed.guards
  have clear := fits'.clear
  obtain ⟨methodAt, methodOk⟩ := fits'.frameSlot (k := 24) (by decide) (by decide)
  obtain ⟨bytecodeAt, bytecodeOk⟩ := fits'.frameSlot (k := 56) (by decide) (by decide)
  have following : (bcp + 1).toNat = bcp.toNat + 1 := toNat_add_of_lt (by omega)
  have field := World.entryField_toNat (i := index) (by omega) (k := CacheRecord.flags) (by decide)
  have flags : CacheRecord.flags.toNat = 24 := rfl
  have located : (a.cache + CacheRecord.entryField index.toUInt64 CacheRecord.flags).toNat =
      a.cache.toNat + 16 + 32 * index + 24 := by
    rw [toNat_add_of_lt (by omega), field]
    omega
  have method : v.world.classes.methodAt? (load m.bytes (a.frame + Frame.method).toNat 8) =
      some id := by
    rw [show (a.frame + Frame.method).toNat = a.frame.toNat - 24 from methodAt,
      (enclosed.agrees (s := a.frame.toNat - 24) (t := a.frame.toNat - 16)
        (by omega)).load (Nat.le_refl _) (by omega),
      caller.framed.method, caller.inhabits.classes, known]
  have operand : (load m.bytes (bcp + 1).toNat
      (if op.opcode = .invokedynamic then 4 else 2 : UInt64).toNat).toNat = index := by
    rw [width, following, kept.load (by omega) (by omega), resumable.operand]
    exact UInt64.toNat_ofNat_of_lt' (by change _ < 2 ^ 64; omega)
  have flagsOk : m.Open (a.cache + CacheRecord.entryField index.toUInt64 CacheRecord.flags) 8 :=
    clear.open (by omega) (by omega)
  have cached : (v.world.classes.get (v.world.classes.method id).holder).cacheAddress = a.cache :=
    caller.inhabits.classes ▸ holder id known
  refine Vm.movePoppedArguments_ok (o := op.opcode) frame
    (Vm.methodOf_ok (f := ⟨a.frame⟩) methodOk method) bytecodeOk ?_
    (clear.open (by omega) (by omega)) ?_ rfl (clear.open (by omega) (by omega)) operand cached flagsOk
  · exact (congrArg (load m.bytes · 8) bytecodeAt).trans suspended.bytecode
  · exact (kept.load (by omega) (by omega)).trans fetched.opcode

/-- The caller of a popped method executes its call again. -/
theorem Stands.runReexecute {words : UInt64} {bytes index : Nat}
    (caller : Stands a b bcp p x v c₀ m₀) (enclosed : d.Encloses m₀ m) (below : d.Below a p)
    (hm : op ∈ Bytecode.decode b.code) (here : bcp = a.code + op.bci.toUInt64)
    (suspended : a.Suspended bcp p m₀) (resumable : a.Resumable bcp words bytes index m₀)
    (wide : bytes = if op.opcode = .invokedynamic then 4 else 2)
    (holder : ∀ id, b.classes.methodAt? a.method = some id →
      (b.classes.get (b.classes.method id).holder).cacheAddress = a.cache)
    (thread : c.reg .thread = a.thread) (frame : c.reg .frame = a.frame)
    (operands : c.reg .operands = p) (sp : c.reg .sp = a.sp)
    (lay : Lays ⟨v.image.code, place⟩ ctx inStub K S reexecute q q' ())
    (next : ∀ c' m', Stands a b bcp p x v c' m' → load m'.bytes (a.thread.toNat + 48) 4 = 0 →
      Vm.Arrives P turns (v.moved (v.image.normalTable.get .none op.opcode.byte) c' m')) :
    Vm.Arrives P (turns + 24) (v.moved q c m) := by
  unfold reexecute at lay
  obtain ⟨i₁, lay⟩ := lay.emit_bind
  obtain ⟨⟨⟩, r₁, asked, lay⟩ := lay.split
  obtain ⟨⟨⟩, r₂, restored, lay⟩ := lay.split
  obtain ⟨i₂, lay⟩ := Lays.emit_bind (i := .movImm .dispatch Place.activeTable) lay
  obtain ⟨i₃, dispatched⟩ := lay.emit_bind
  have own := below.thread
  have low := below.low
  have callee := below.frame
  have bounds := caller.bounds
  have under := caller.top
  have records := caller.fits.records
  have heap := caller.fits.heap
  have room := caller.fits.thread
  have top := caller.fits.top
  have cacheAbove := caller.loaded.cacheAbove
  have fits := caller.fits.congr enclosed.size enclosed.guards
  have placed : a.Placed b.maxLocals b.maxStack c m := ⟨thread, frame, fits⟩
  have framed : a.Framed m := caller.framed.agrees (by omega) (enclosed.agrees (by omega))
    (enclosed.agrees (by omega))
  have suspended₁ : a.Suspended bcp p m := suspended.agrees (by omega)
    (enclosed.agrees (by omega)) (enclosed.agrees (by omega))
  have below₀ : m₀.Agrees m 0x1000 a.heap.toNat := enclosed.agrees (.inl (by rw [own]; omega))
  have resumable₁ := resumable.agrees cacheAbove below₀
  have spares₁ := (Cpu.Spares.refl c [.x0, .x1, .x2, .scratch1, .link]).setReg (r := .x2) (by simp) p
  refine placed.runFrameLoad i₁ (by decide) (by decide) suspended₁.operands ?_
  refine Vm.runMoveArguments (fun c₂ steps watched spares₂ => ?_) asked fun c₂ spares₂ => ?_
  · have target : (c.setReg .x2 p).reg .operands = p ∧ (c.setReg .x2 p).reg .x2 = p :=
      ⟨(Cpu.reg_setReg_ne _ _ (by decide)).trans operands, Cpu.reg_setReg_self _ _ (by decide)⟩
    rw [target.1, target.2]
    exact caller.movePoppedArguments enclosed below hm here suspended₁ resumable wide holder
      (((spares₁.trans spares₂).regs _ (by decide)).trans frame) steps watched
  have spares := spares₁.trans spares₂
  refine (placed.spares spares (by decide) (by decide)).runRestoreCaller framed suspended₁ restored
    fun c₃ m₁ regained spares₃ changed₁ => .movImm i₂ ?_
  have regained₄ := regained.spares ((Cpu.Spares.refl c₃ [.dispatch]).setReg (r := .dispatch)
    (by simp) Place.activeTable) (by decide)
  have placed₄ : a.Placed b.maxLocals b.maxStack (c₃.setReg .dispatch Place.activeTable) m₁ :=
    ⟨regained₄.thread, regained₄.frame, fits.changed changed₁⟩
  refine placed₄.runThreadStore i₃ (by decide) ?_
  have four : Width.word.bytes.toNat = 4 := rfl
  have offset : ThreadBlock.framePop.toNat = 48 := rfl
  obtain ⟨popAt, popOk⟩ := placed₄.fits.threadField (k := ThreadBlock.framePop) (w := 4) (by decide)
  rw [Cpu.reg_zero]
  have changed₂ := Guarded.changed_put m₁ (a.thread + ThreadBlock.framePop) Width.word.bytes 0
  have ended := Guarded.load_put_word (v := 0) popOk
  rw [popAt, offset] at ended
  change load (m₁.put (a.thread + ThreadBlock.framePop) Width.word.bytes 0).bytes _ 4 = 0 at ended
  generalize m₁.put _ _ 0 = m₂ at changed₂ ended ⊢
  have stands : Stands a b bcp p x v c₀ m₂ := by
    refine caller.agreeing (changed₂.size.trans (changed₁.size.trans enclosed.size))
      (changed₂.guards.trans (changed₁.guards.trans enclosed.guards)) (by rw [ended]; rfl)
      fun j hj => ?_
    rw [changed₂.other j (by omega), changed₁.other j (by omega), enclosed.other j (by
      rw [own]
      omega)]
  have pointer : (c₃.setReg .dispatch Place.activeTable).reg .sp = a.sp := by
    rw [Cpu.reg_setReg_ne _ _ (by decide), spares₃.regs _ (by decide), spares.regs _ (by decide), sp]
  refine (stands.withRegisters (regained₄.registers (Cpu.reg_setReg_self _ _ (by decide))
    pointer)).runDispatchTo dispatched hm ((UInt64.add_zero bcp).trans here)
    fun c₅ h _ _ => next c₅ m₂ ?_ ended
  rwa [UInt64.add_zero] at h

/-- A frame that the debugger wants popped at its entry comes to the code that pops it. -/
theorem Stands.runPopRequest {pop : CodeLabel} (h : Stands d b bcp p x v c m)
    (unlocked : d.Unlocked n m) (listening : load m.bytes (d.thread.toNat + 56) 4 ≠ 0)
    (none : load m.bytes (d.thread.toNat + 48) 4 = 0)
    (known : b.classes.methodAt? d.method = some id)
    (wants : (v.hooks.methodEntry (v.world.classes.member id)).1 = true)
    (set : ctx.popFrame = some pop)
    (lay : Lays ⟨v.image.code, place⟩ ctx inStub K S notifyEntry q q' ())
    (next : ∀ c' m', d.Placed b.maxLocals b.maxStack c' m' → d.Encloses m m' → d.Unlocked n m' →
      Vm.Arrives P turns ((v.told .entry id).moved (place pop) c' m')) :
    Vm.Arrives P (turns + 22) (v.moved q c m) := by
  unfold notifyEntry at lay
  obtain ⟨done, lay⟩ := lay.newLabel_bind
  obtain ⟨i₁, lay⟩ := lay.emit_bind
  obtain ⟨i₂, lay⟩ := lay.emitTo_bind
  obtain ⟨⟨⟩, r₁, call, lay⟩ := lay.split
  have low := h.fits.thread
  have heap := h.fits.heap
  have room := h.fits.operands
  have above := h.fits.top
  refine h.runThreadLoad i₁ (by decide) rfl (.branchZero i₂ (fun zero => ?_) fun _ => ?_)
  · rw [Cpu.reg_setReg_self _ _ (by decide)] at zero
    exact absurd zero listening
  refine (h.setReg .x3 _ rfl).runCallVm call (by simp)
    fun c₁ m₁ K₁ r₂ resume h₁ link _ _ _ _ sp₁ fp₁ kept₁ confined₁ => ?_
  have none₁ := ((confined₁.agrees (s := d.thread.toNat + 48) (t := d.thread.toNat + 52)
    (by omega)).load (Nat.le_refl _) (Nat.le_refl _)).trans none
  have unlocked₁ := unlocked.agrees (kept₁ _ _ (by omega)) (kept₁ _ _ (by omega))
    (kept₁ _ _ (by omega))
  refine h₁.runPopNotice known wants none₁ sp₁ fp₁ fun m₂ changed₂ marked => ?_
  rw [link]
  have placed₂ := (Activation.Placed.of_stands h₁).changed changed₂
  refine placed₂.runResumePopping marked set resume fun c₃ m₃ spares₃ changed₃ => ?_
  have enclosed₃ : d.Encloses m m₃ := (Activation.Encloses.of_confined confined₁).trans <|
    (Activation.Encloses.of_changed changed₂ (by omega) low (by omega)).trans <|
    .of_changed changed₃ (by omega) low (by omega)
  exact next c₃ m₃ ((placed₂.changed changed₃).spares spares₃ (by decide) (by decide)) enclosed₃
    ((unlocked₁.changed changed₂ (by omega) (.inl (by omega))).changed changed₃ (by omega)
      (.inl (by omega)))

/-- The frame of a method that a guest method has called is removed. -/
theorem Activation.Placed.runPopFrame {pop : CodeLabel} {S T : List CodeLabel} [Taken pop S T]
    (h : d.Placed l s c m) (unlocked : d.Unlocked n m) (sent : d.SentBy sender m)
    (inside : v.image.contains sender.link = true)
    (lay : Lays ⟨v.image.code, place⟩ ctx inStub K S (ExceptionEntries.popFrameCode pop) q q' ())
    (next : ∀ K' r c' m', Lays ⟨v.image.code, place⟩ ctx inStub K' T reexecute r q' () →
      sender.Resumed c' → c'.reg .thread = d.thread → d.Encloses m m' →
      Vm.Arrives P turns (v.moved r c' m')) :
    Vm.Arrives P (turns + 5 + (d.frame.toNat - d.top.toNat) + 18) (v.moved (place pop) c m) := by
  rw [popFrameCode_eq] at lay
  obtain ⟨start, lay⟩ := lay.bind_bind
  obtain ⟨⟨⟩, r₁, begun, lay⟩ := lay.split
  obtain ⟨interpreted, lay⟩ := lay.newLabel_bind
  obtain ⟨i₁, lay⟩ := lay.emit_bind
  obtain ⟨⟨⟩, r₂, asked, lay⟩ := lay.split
  obtain ⟨i₂, lay⟩ := lay.emitTo_bind
  obtain ⟨⟨⟩, r₃, -, lay⟩ := lay.split
  obtain ⟨there, lay⟩ := lay.bind_bind
  obtain ⟨⟨⟩, r₄, removed, again⟩ := lay.split
  rw [there] at i₂
  rw [show place pop = q from start]
  have low := h.fits.thread
  have room := h.fits.operands
  have above := h.fits.top
  refine h.runBeginPop unlocked begun fun c₁ m₁ spares₁ enclosed₁ unlocked₁ => ?_
  have sent₁ := sent.agrees (enclosed₁.agrees (.inr (.inr (Nat.le_refl _))))
  have placed₁ : d.Placed l s c₁ m₁ :=
    ⟨(spares₁.regs _ (by decide)).trans h.thread, (spares₁.regs _ (by decide)).trans h.frame,
      h.fits.congr enclosed₁.size enclosed₁.guards⟩
  have within := sent.within
  have eight : (8 : UInt64).toNat = 8 := rfl
  have bound := h.fits.locals
  have second : (d.frame + 8).toNat = d.frame.toNat + 8 := toNat_add_of_lt (by omega)
  refine .loadAt placed₁.frame i₁ second ?_ sent₁.link ?_
  · exact placed₁.fits.clearStack.open (by change _ ≤ (d.frame + 8).toNat; omega)
      (by change (d.frame + 8).toNat + 8 ≤ _; omega)
  have spares₂ := (Cpu.Spares.refl c₁ [.x0, .scratch1, .link]).setReg (r := .x0) (by simp) sender.link
  refine Vm.runAskInterpreted ?_ asked fun c₃ spares₃ yes => ?_
  · rw [Cpu.reg_setReg_self _ _ (by decide)]
    exact inside
  refine .branchNonzero i₂ (fun _ => ?_) fun no => absurd (no ▸ yes) (by decide)
  have placed₃ := placed₁.spares (spares₂.trans spares₃) (by decide) (by decide)
  refine placed₃.runRemoveQuietly (.free unlocked₁) sent₁ removed fun c₄ m₄ resumed spares₄ changed₄ => ?_
  exact next _ r₄ c₄ m₄ again resumed ((spares₄.regs _ (by decide)).trans placed₃.thread)
    (enclosed₁.trans (.of_changed changed₄ (by omega) low (by omega)))

/-- A method whose frame the debugger pops at its entry is called again. Its caller stands for what it
    stood for at the first call, and the debugger was told once. -/
theorem Stands.runPoppedEntry {words : UInt64} {bytes index : Nat} {pop : CodeLabel} {r r' : UInt64}
    {ctx' : CodeContext} {inStub' : Bool} {K' S' T : List CodeLabel} [Taken pop S' T]
    (callee : Stands d b' bcp' p' y v c m) (unlocked : d.Unlocked n m) (sent : d.SentBy sender m)
    (listening : load m.bytes (d.thread.toNat + 56) 4 ≠ 0)
    (none : load m.bytes (d.thread.toNat + 48) 4 = 0)
    (known : b'.classes.methodAt? d.method = some id)
    (wants : (v.hooks.methodEntry (v.world.classes.member id)).1 = true)
    (caller : Stands a b bcp p x v c₀ m) (below : d.Below a p)
    (suspended : a.Suspended bcp p m) (resumable : a.Resumable bcp words bytes index m)
    (hm : op ∈ Bytecode.decode b.code) (here : bcp = a.code + op.bci.toUInt64)
    (wide : bytes = if op.opcode = .invokedynamic then 4 else 2)
    (holder : ∀ id, b.classes.methodAt? a.method = some id →
      (b.classes.get (b.classes.method id).holder).cacheAddress = a.cache)
    (frame : sender.frame = a.frame) (operands : sender.operands = p) (sp : sender.sp = a.sp)
    (inside : v.image.contains sender.link = true) (set : ctx.popFrame = some pop)
    (lay : Lays ⟨v.image.code, place⟩ ctx inStub K S notifyEntry q q' ())
    (popping : Lays ⟨v.image.code, place⟩ ctx' inStub' K' S' (ExceptionEntries.popFrameCode pop)
      r r' ())
    (next : ∀ c' m', Stands a b bcp p x (v.told .entry id) c' m' →
      load m'.bytes (a.thread.toNat + 48) 4 = 0 →
      Vm.Arrives P turns
        ((v.told .entry id).moved (v.image.normalTable.get .none op.opcode.byte) c' m')) :
    Vm.Arrives P (turns + 29 + (d.frame.toNat - d.top.toNat) + 18 + 22) (v.moved q c m) := by
  refine callee.runPopRequest unlocked listening none known wants set lay
    fun c₁ m₁ placed₁ enclosed₁ unlocked₁ => ?_
  have sent₁ := sent.agrees (enclosed₁.agrees (.inr (.inr (Nat.le_refl _))))
  refine placed₁.runPopFrame unlocked₁ sent₁ inside popping
    fun K r₁ c₂ m₂ again resumed thread enclosed₂ => ?_
  exact caller.told.runReexecute (enclosed₁.trans enclosed₂) below hm here suspended resumable wide
    holder (thread.trans below.thread) (resumed.frame.trans frame) (resumed.operands.trans operands)
    (resumed.sp.trans sp) again next

end TemplateVm
