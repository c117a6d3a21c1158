import TemplateVm.Proofs.Activation.Leaf
import TemplateVm.Proofs.Activation.Services

set_option autoImplicit false
set_option synthInstance.maxSize 100000

/-!
# Before a template

Counters and tracing leave the activation as it is. The counter at which a run is to stop either is
not reached or ends the run.
-/
namespace TemplateVm

open Memory (Guarded load)
open Guest Emit

namespace Vm

variable {v : Vm} {p fp : UInt64} {c : Cpu} {m : Guarded} {steps : UInt64}
  {watched : List (UInt64 × UInt64)}

theorem lastFrame_ok (sp : m.Open (v.map.thread + ThreadBlock.lastSp) 8)
    (fp' : m.Open (v.map.thread + ThreadBlock.lastFp) 8)
    (pc : m.Open (v.map.thread + ThreadBlock.lastPc) 8)
    (some : load m.bytes (v.map.thread + ThreadBlock.lastSp).toNat 8 ≠ 0)
    (frame : load m.bytes (v.map.thread + ThreadBlock.lastFp).toNat 8 = fp) :
    lastFrame ((v.moved p c m).counted steps watched) =
      .ok ⟨fp⟩ ((v.moved p c m).counted steps watched) := by
  have read : ThreadBlock.lastFrame ⟨v.map.thread⟩ m = .ok
      ⟨load m.bytes (v.map.thread + ThreadBlock.lastSp).toNat 8,
        load m.bytes (v.map.thread + ThreadBlock.lastFp).toNat 8,
        load m.bytes (v.map.thread + ThreadBlock.lastPc).toNat 8⟩ m :=
    (bind_ok sp.readA).trans <| (bind_ok fp'.readA).trans <| (bind_ok pc.readA).trans rfl
  refine (bind_ok (onThread_ok read)).trans ?_
  simp only [some, ↓reduceIte, frame]
  rfl

theorem methodOf_ok {f : Frame} (ok : m.Open (f.fp + Frame.method) 8) {id : MethodId}
    (known : v.world.classes.methodAt? (load m.bytes (f.fp + Frame.method).toNat 8) = some id) :
    methodOf f ((v.moved p c m).counted steps watched) =
      .ok id ((v.moved p c m).counted steps watched) := by
  refine (bind_ok (onMemory_ok ok.readA)).trans ?_
  refine (bind_ok (m := classes) rfl).trans ?_
  have classes : ((v.moved p c m).counted steps watched).world.classes = v.world.classes := rfl
  have eight : (8 : UInt64).toNat = 8 := rfl
  simp only [classes, eight, known]
  rfl

/-- A bytecode is recorded, and nothing else is done. -/
theorem traceBytecode_ok {index x y : UInt64} {tos : TopOfStack} {f : Frame} {id : MethodId}
    (held : TopOfStack.ofIndex? index.toNat = some tos)
    (frame : ∀ steps watched, lastFrame ((v.moved p c m).counted steps watched) =
      .ok f ((v.moved p c m).counted steps watched))
    (method : ∀ steps watched, methodOf f ((v.moved p c m).counted steps watched) =
      .ok id ((v.moved p c m).counted steps watched))
    (ok : m.Open (f.fp + Frame.bytecode) 8)
    (ok' : m.Open (load m.bytes (f.fp + Frame.bytecode).toNat 8) 1) :
    ∃ r, ∀ steps watched, traceBytecode index x y ((v.moved p c m).counted steps watched) =
      .ok () (({ v with trace := v.trace.push r }.moved p c m).counted steps watched) := by
  have tosOk (steps : UInt64) (watched : List (UInt64 × UInt64)) :
      tosAt "trace" index ((v.moved p c m).counted steps watched) =
        .ok tos ((v.moved p c m).counted steps watched) := by
    simp only [tosAt, held]
    rfl
  let bcp := load m.bytes (f.fp + Frame.bytecode).toNat 8
  let record : TraceRecord := {
    method := v.world.classes.member id
    bci := ((v.world.classes.method id).bci? bcp).getD 0
    opcode := Opcode.ofByte? (load m.bytes bcp.toNat 1).toUInt8, tos, x0 := x, v0 := y }
  refine ⟨record, fun steps watched => (bind_ok (tosOk steps watched)).trans <|
    (bind_ok (frame steps watched)).trans <| (bind_ok (method steps watched)).trans <|
    (bind_ok (onMemory_ok ((bind_ok ok.readA).trans (bind_ok ok'.readA)))).trans <|
    (bind_ok (m := classes) rfl).trans ?_⟩
  rfl

/-- One more invocation is counted in the method's record, and nothing else is written. The branch is
    taken exactly if the count comes to the number in the settings. -/
theorem Arrives.countInvocation {P : Vm → Prop} {turns : Nat} {q q' k n : UInt64}
    {place : CodeLabel → UInt64}
    {ctx : CodeContext} {inStub : Bool} {K S : List CodeLabel} {overflow : CodeLabel}
    [Known overflow K] (ok : m.Open k 4)
    (record : c.reg .method + MethodRecord.invocationCounter = k)
    (count : Memory.load m.bytes k.toNat 4 = n)
    (lay : Lays ⟨v.image.code, place⟩ ctx inStub K S (Emit.countInvocation overflow) q q' ())
    (next : ∀ c', (∀ r, r ≠ .scratch1 → r ≠ .scratch2 → c'.reg r = c.reg r) →
      n + 1 ≠ ctx.settings.compileThreshold.toUInt64 →
      Arrives P turns (v.moved q' c' (m.put k 4 (n + 1))))
    (reached : ∀ c', (∀ r, r ≠ .scratch1 → r ≠ .scratch2 → c'.reg r = c.reg r) →
      n + 1 = ctx.settings.compileThreshold.toUInt64 →
      Arrives P turns (v.moved (place overflow) c' (m.put k 4 (n + 1)))) :
    Arrives P (turns + 6) (v.moved q c m) := by
  unfold Emit.countInvocation at lay
  obtain ⟨i₁, lay⟩ := lay.emit_bind
  obtain ⟨i₂, lay⟩ := lay.emit_bind
  obtain ⟨i₃, lay⟩ := lay.emit_bind
  replace lay := lay.settings_bind
  obtain ⟨i₄, lay⟩ := lay.emit_bind
  obtain ⟨i₅, lay⟩ := lay.emit_bind
  obtain ⟨i₆, rfl⟩ := lay.emitTo
  subst record
  refine .loadAt rfl i₁ rfl ok count (.binary i₂ ?_)
  rw [Cpu.reg_setReg_self _ _ (by decide), Cpu.setReg_setReg]
  change Arrives P _ (v.moved _ (c.setReg .scratch1 (n + 1)) m)
  generalize hc₁ : c.setReg .scratch1 (n + 1) = c₁
  have sum : c₁.reg .scratch1 = n + 1 := hc₁ ▸ Cpu.reg_setReg_self _ _ (by decide)
  have same₁ (r : Register) (hr : r ≠ .scratch1) : c₁.reg r = c.reg r :=
    hc₁ ▸ Cpu.reg_setReg_ne _ _ hr
  refine .storeAt (same₁ _ (by decide)) i₃ ok (.movImm i₄ (.compare i₅ ?_))
  rw [sum]
  generalize hc₂ : c₁.setReg .scratch2 ctx.settings.compileThreshold.toUInt64 = c₂
  have flags : Condition.eq.holds (.ofCompare (c₂.reg .scratch1) (c₂.operand (.reg .scratch2))) =
      (n + 1 == ctx.settings.compileThreshold.toUInt64) := by
    rw [Condition.holds_eq, ← hc₂, Cpu.reg_setReg_ne _ _ (by decide), sum]
    exact congrArg (n + 1 == ·) (Cpu.reg_setReg_self _ _ (by decide))
  have same (r : Register) (hr : r ≠ .scratch1) (hr' : r ≠ .scratch2) : c₂.reg r = c.reg r := by
    rw [← hc₂, Cpu.reg_setReg_ne _ _ hr', same₁ r hr]
  refine .branchIf i₆ (fun on => ?_) fun off => ?_
  · exact reached _ same (beq_iff_eq.mp (flags.symm.trans on))
  · exact next _ same (beq_eq_false_iff_ne.mp (flags.symm.trans off))

end Vm

namespace Stands

variable {P : Vm → Prop} {turns : Nat} {v : Vm} {q q' : UInt64} {c : Cpu} {m m' : Guarded}
  {a : Activation} {b : Program} {bcp p : UInt64} {x : Contents} {place : CodeLabel → UInt64}
  {ctx : CodeContext} {inStub : Bool} {K S : List CodeLabel} {tos : TopOfStack}

/-- The runtime finds the frame that is shown to it. -/
theorem lastFrame (h : Stands a b bcp p x v c m)
    (sp : load m.bytes (a.thread.toNat + 16) 8 = p)
    (fp : load m.bytes (a.thread.toNat + 24) 8 = a.frame) (q steps : UInt64)
    (watched : List (UInt64 × UInt64)) : Vm.lastFrame ((v.moved q c m).counted steps watched) =
      .ok ⟨a.frame⟩ ((v.moved q c m).counted steps watched) := by
  have bounds := h.bounds
  have thread := h.inhabits.thread
  obtain ⟨spAt, spOk, -⟩ := h.threadField (k := ThreadBlock.lastSp) (n := 8) (by decide)
    (by decide) 0
  obtain ⟨fpAt, fpOk, -⟩ := h.threadField (k := ThreadBlock.lastFp) (n := 8) (by decide)
    (by decide) 0
  obtain ⟨-, pcOk, -⟩ := h.threadField (k := ThreadBlock.lastPc) (n := 8) (by decide)
    (by decide) 0
  refine Vm.lastFrame_ok (thread ▸ spOk) (thread ▸ fpOk) (thread ▸ pcOk) ?_ ?_
  · rw [thread, spAt]
    change load m.bytes (a.thread.toNat + 16) 8 ≠ 0
    rw [sp]
    rintro rfl
    have zero : (0 : UInt64).toNat = 0 := rfl
    omega
  · rw [thread, fpAt]
    exact fp

/-- The runtime finds the method of the frame. -/
theorem methodOf (h : Stands a b bcp p x v c m) : ∃ id, b.classes.methodAt? a.method = some id ∧
    ∀ q steps watched, Vm.methodOf ⟨a.frame⟩ ((v.moved q c m).counted steps watched) =
      .ok id ((v.moved q c m).counted steps watched) := by
  obtain ⟨id, known⟩ := Option.isSome_iff_exists.mp h.inhabits.method
  obtain ⟨address, ok⟩ := h.fits.frameSlot (k := 24) (by decide) (by decide)
  refine ⟨id, known, fun q steps watched => Vm.methodOf_ok (f := ⟨a.frame⟩) ok ?_⟩
  change v.world.classes.methodAt? (load m.bytes (a.frame + -24).toNat 8) = some id
  rw [address, h.inhabits.classes]
  change b.classes.methodAt? (load m.bytes (a.frame.toNat - 24) 8) = some id
  rw [h.framed.method, known]

/-- A service that is about the last frame finds that of the activation, and its method. -/
theorem runFrameService (h : Stands a b bcp p x v c m) {s : Service} (leaf : s.isLeaf = false)
    {id : MethodId} (known : b.classes.methodAt? a.method = some id)
    (sp : load m.bytes (a.thread.toNat + 16) 8 = p)
    (fp : load m.bytes (a.thread.toNat + 24) 8 = a.frame)
    (serves : ∀ m₁, Stands a b bcp p x v c m₁ →
      m.Changed m₁ (a.thread.toNat + 40) (a.thread.toNat + 44) →
      (∀ steps watched, Vm.lastFrame ((v.moved s.address c m₁).counted steps watched) =
        .ok ⟨a.frame⟩ ((v.moved s.address c m₁).counted steps watched)) →
      (∀ steps watched, Vm.methodOf ⟨a.frame⟩ ((v.moved s.address c m₁).counted steps watched) =
        .ok id ((v.moved s.address c m₁).counted steps watched)) →
      ∃ w m₂, v.Performs w s c m₁ m₂ ∧
        ∀ m', m₂.Changed m' (a.thread.toNat + 40) (a.thread.toNat + 44) →
          Vm.Arrives P turns (w.moved (c.reg .link) c m')) :
    Vm.Arrives P (turns + 1) (v.moved s.address c m) := by
  refine h.runInRuntime h.inhabits.thread leaf fun m₁ h₁ changed₁ => ?_
  have kept := changed₁.agrees (s := a.thread.toNat + 16) (t := a.thread.toNat + 32) (by omega)
  obtain ⟨id', known', method⟩ := h₁.methodOf
  obtain rfl : id' = id := Option.some.inj (known'.symm.trans known)
  exact serves m₁ h₁ changed₁
    (h₁.lastFrame ((kept.load (by omega) (by omega)).trans sp)
      ((kept.load (by omega) (by omega)).trans fp) s.address) (method s.address)

/-- The service that records bytecodes leaves the activation as it is. -/
theorem runTraceService (h : Stands a b bcp p x v c m) (held : c.reg .x1 = tos.index.toUInt64)
    (bytecode : load m.bytes (a.frame.toNat - 56) 8 = bcp) (readable : m.Open bcp 1)
    (sp : load m.bytes (a.thread.toNat + 16) 8 = p)
    (fp : load m.bytes (a.thread.toNat + 24) 8 = a.frame)
    (next : ∀ v' m', v'.image = v.image → v'.marks = v.marks → Stands a b bcp p x v' c m' →
      m.Changed m' (a.thread.toNat + 40) (a.thread.toNat + 44) →
      Vm.Arrives P turns (v'.moved (c.reg .link) c m')) :
    Vm.Arrives P (turns + 1) (v.moved Service.traceBytecode.address c m) := by
  have bounds := h.bounds
  have room := h.fits.thread
  have operands := h.fits.operands
  have top := h.fits.top
  have index : TopOfStack.ofIndex? (c.reg .x1).toNat = some tos := by
    rw [held]
    cases tos <;> rfl
  obtain ⟨id, known, -⟩ := h.methodOf
  refine h.runFrameService rfl known sp fp fun m₁ h₁ changed₁ frame method => ?_
  obtain ⟨bytecodeAt, bytecodeOk⟩ := h₁.fits.frameSlot (k := 56) (by decide) (by decide)
  have saved : load m₁.bytes (a.frame + -56).toNat 8 = bcp := by
    rw [show (a.frame + -56).toNat = a.frame.toNat - 56 from bytecodeAt,
      (changed₁.agrees (s := a.frame.toNat - 56) (t := a.frame.toNat - 48) (by omega)).load
        (Nat.le_refl _) (by omega)]
    exact bytecode
  obtain ⟨r, recorded⟩ := Vm.traceBytecode_ok (x := c.reg .x2) (y := c.reg .x3) index frame method
    bytecodeOk (by
      change m₁.Open (load m₁.bytes (a.frame + -56).toNat 8) 1
      rw [saved]
      exact readable.changed changed₁)
  have performed (steps : UInt64) (watched : List (UInt64 × UInt64)) : Vm.perform .traceBytecode
      ((v.moved Service.traceBytecode.address c m₁).counted steps watched) =
      .ok () (({ v with trace := v.trace.push r }.moved Service.traceBytecode.address c
        m₁).counted steps watched) :=
    (Vm.bind_ok (m := Vm.reg .x0) rfl).trans <| (Vm.bind_ok (m := Vm.reg .x1) rfl).trans <|
      (Vm.bind_ok (m := Vm.reg .x2) rfl).trans <| (Vm.bind_ok (m := Vm.reg .x3) rfl).trans <|
      recorded steps watched
  refine ⟨{ v with trace := v.trace.push r }, m₁,
    ⟨performed, rfl, ⟨fun quiet => quiet, rfl, rfl⟩, rfl, rfl⟩,
    fun m' changed => next _ m' rfl rfl ?_ (changed₁.trans changed)⟩
  exact (h₁.outside changed (.inr (.inl ⟨by omega, by omega⟩))).ofVm rfl { h₁.inhabits with }

/-- The bytecode is reported. -/
theorem runTraceCall {t : TopOfStack} (h : Stands a b bcp p x v c m)
    (held : c.reg .x1 = t.index.toUInt64)
    (lay : Lays ⟨v.image.code, place⟩ ctx inStub K S
      (Emit.callVm none .traceBytecode [.x1, .x2, .x3]) q q' ())
    (readable : 0x1000 ≤ bcp.toNat ∧ bcp.toNat < a.heap.toNat)
    (next : ∀ v' c' m', v.Continues ctx.settings (some []) [] m v' m' →
      Stands a b bcp p x v' c' m' → m.Agrees m' (a.thread.toNat + 48) (a.frame.toNat - 56) →
      Vm.Arrives P turns (v'.moved q' c' m')) :
    Vm.Arrives P (turns + 24) (v.moved q c m) := by
  have bounds := h.bounds
  have thread := h.fits.thread
  have above := h.fits.top
  have under := h.top
  have heap := h.fits.heap
  have records := h.fits.records
  refine h.runCallVm lay (by decide) fun c₁ m₁ K' r resume h₁ link _ same₁ _ saved sp fp kept₁
    confined => ?_
  have held : c₁.reg .x1 = t.index.toUInt64 :=
    (same₁ _ (by decide) (by decide) (by decide)).trans held
  refine h₁.runTraceService held saved ?_ sp fp fun v₂ m₂ image marks h₂ changed₂ => ?_
  · have one : (1 : UInt64).toNat = 1 := rfl
    exact h₁.open_below readable.1 (by omega)
  rw [link]
  rw [← image] at resume
  refine h₂.runResumeGuest resume ?_ (by simp) fun c₃ m₃ h₃ _ _ _ changed₃ => ?_
  · rw [← saved]
    exact (changed₂.agrees (s := a.frame.toNat - 56) (t := a.frame.toNat - 48)
      (by omega)).load (Nat.le_refl _) (by omega)
  have kept {lo hi : Nat} (away : hi ≤ a.thread.toNat + 8 ∨
      a.thread.toNat + 48 ≤ lo ∧ hi ≤ a.frame.toNat - 56) : m.Agrees m₃ lo hi :=
    (kept₁ _ _ (by omega)).trans ((changed₂.agrees (by omega)).trans (changed₃.agrees (by omega)))
  have guards := changed₃.guards.trans (changed₂.guards.trans confined.guards)
  exact next v₂ c₃ m₃ (.of_agrees image guards marks (kept (.inl (by omega)))) h₃
    (kept (.inr ⟨Nat.le_refl _, Nat.le_refl _⟩))

/-- The entry for reporting a bytecode returns with the held value in its place. -/
theorem runTraceEntry (h : Stands a b bcp p x v c m) (roomy : a.Roomy ctx.settings b.maxStack)
    (on : ctx.settings.traceBytecodes = true) {entry : UInt64}
    (lay : Lays ⟨v.image.code, place⟩ ctx inStub K S (traceEntry tos) q q' entry)
    (readable : 0x1000 ≤ bcp.toNat ∧ bcp.toNat < a.heap.toNat)
    (next : ∀ v' c' m', v.Continues ctx.settings (some []) [] m v' m' →
      Stands a b bcp p x v' c' m' → c'.reg .x0 = c.reg .x0 → c'.float .v0 = c.float .v0 →
      Vm.Arrives P turns (v'.moved (c.reg .link) c' m')) :
    entry = q ∧ Vm.Arrives P (turns + 32) (v.moved q c m) := by
  unfold traceEntry at lay
  replace lay := lay.pc_bind
  obtain ⟨i₁, lay₁⟩ := lay.emit_bind
  obtain ⟨i₂, lay₂⟩ := lay₁.emit_bind
  obtain ⟨i₃, lay₃⟩ := lay₂.emit_bind
  obtain ⟨i₄, lay₄⟩ := lay₃.emit_bind
  obtain ⟨i₅, lay₅⟩ := lay₄.emit_bind
  obtain ⟨⟨⟩, q₁, call, lay₆⟩ := lay₅.split
  obtain ⟨i₆, lay₇⟩ := lay₆.emit_bind
  obtain ⟨i₇, lay₈⟩ := lay₇.emit_bind
  obtain ⟨i₈, lay₉⟩ := lay₈.emit_bind
  obtain ⟨-, same⟩ := lay₉.ended
  refine ⟨same, ?_⟩
  have uses : ctx.settings.usesStack = true := by simp [Settings.usesStack, on]
  obtain ⟨-, low, high, top⟩ := h.room roomy uses (k := 16) (by decide)
  have thread := h.fits.thread
  have above := h.fits.top
  have under := h.top
  have heap := h.fits.low
  have records := h.fits.records
  refine h.runSavePair i₁ (by omega) high top fun m₁ sp₁ h₁ x0 link changed₁ => ?_
  have inner : a.low + 16 ≤ (a.sp + -16).toNat := by omega
  have inner' : (a.sp + -16).toNat ≤ a.locals.toNat + 8 := by omega
  refine h₁.runSaveFloat i₂ inner ?_ inner' fun m₂ sp₂ h₂ v0 changed₂ => ?_
  · change (a.sp + -16).toNat ≤ p.toNat
    omega
  refine .movImm i₃ (.mov i₄ (.bitsOfFloat i₅ ?_))
  refine (((h₂.setReg .x1 _ rfl).setReg .x2 _ rfl).setReg .x3 _ rfl).runTraceCall (t := tos) ?_
    call readable
    fun v₃ c₃ m₃ continues h₃ agrees => ?_
  · simp +decide only [Cpu.reg_setReg, ↓reduceIte]
  dsimp only at agrees changed₂ sp₂ v0
  rw [← continues.image] at i₆ i₇ i₈
  -- what was saved lies between the fields of the thread and the frame, which the call leaves
  have kept {k : Nat} (first : a.sp.toNat - 32 ≤ k) (last : k + 8 ≤ a.sp.toNat) :
      load m₃.bytes k 8 = load m₂.bytes k 8 := agrees.load (by omega) (by omega)
  have between {k : Nat} (first : a.sp.toNat - 16 ≤ k) (last : k + 8 ≤ a.sp.toNat) :
      load m₃.bytes k 8 = load m₁.bytes k 8 :=
    (kept (by omega) last).trans
      ((changed₂.agrees (.inr (by omega))).load (Nat.le_refl _) (Nat.le_refl _))
  have float : load m₃.bytes ((a.sp + -16).toNat - 16) 8 = c.float .v0 :=
    (kept (by omega) (by omega)).trans v0
  refine Stands.runRestoreFloat (a := { a with sp := a.sp + -16 }) h₃ i₆ inner inner' float
    fun h₄ => ?_
  refine Stands.runRestorePair (a := a) h₄ i₇ (by omega) top
    ((between (Nat.le_refl _) (by omega)).trans x0) ((between (by omega) (by omega)).trans link)
    (by decide) fun h₅ => .ret i₈ ?_
  rw [Cpu.reg_setReg_self _ _ (by decide)]
  have changed : m.Changed m₂ (a.sp.toNat - 32) a.sp.toNat :=
    (changed₁.mono (by omega) (Nat.le_refl _)).trans (changed₂.mono (by omega) (by omega))
  refine next v₃ _ m₃ ((Vm.Continues.of_changed changed (.inl (by omega))).trans continues) h₅ ?_ ?_
  · simp +decide only [Cpu.reg_setReg, ↓reduceIte]
  · simp only [Cpu.float_setReg, Cpu.float_setFloat, ↓reduceIte]

/-! ## Counters -/

/-- A global word is counted up. -/
theorem runCountAt (h : Stands a b bcp p x v c m) {k : UInt64}
    (lay : Lays ⟨v.image.code, place⟩ ctx inStub K S (countAt k) q q' ()) (above : 0x1000 ≤ k.toNat)
    (below : k.toNat + 8 ≤ 0x10000)
    (next : ∀ c' m', Stands a b bcp p x v c' m' →
      (∀ r, r ≠ .scratch1 → r ≠ .scratch2 → c'.reg r = c.reg r) →
      (∀ f, c'.float f = c.float f) → m.Changed m' k.toNat (k.toNat + 8) →
      load m'.bytes k.toNat 8 = load m.bytes k.toNat 8 + 1 →
      Vm.Arrives P turns (v.moved q' c' m')) : Vm.Arrives P (turns + 3) (v.moved q c m) := by
  unfold countAt at lay
  obtain ⟨i₁, lay⟩ := lay.emit_bind
  obtain ⟨i₂, lay⟩ := lay.emit_bind
  obtain ⟨i₃, rfl⟩ := lay.emit
  have records := h.fits.records
  have eight : (8 : UInt64).toNat = 8 := rfl
  have ok : m.Open k 8 := h.open_below above (by omega)
  have at' : ((c.setReg .scratch1 k).setReg .scratch2 1).reg .scratch1 = k := by
    simp +decide only [Cpu.reg_setReg, ↓reduceIte]
  refine .movImm i₁ (.movImm i₂ (.fetchAdd i₃ ?_ ?_))
  · rw [at']
    exact ok
  rw [at', Cpu.setReg_zero]
  refine next _ _ ?_ (fun r h₁ h₂ => ?_) (fun f => ?_) (Guarded.changed_put m k 8 _) ?_
  · exact ((h.setReg .scratch1 k rfl).setReg .scratch2 1 rfl).outside
      (Guarded.changed_put m k 8 _) (.inl (by omega))
  · rw [Cpu.reg_setReg_ne _ _ h₂, Cpu.reg_setReg_ne _ _ h₁]
  · rw [Cpu.float_setReg, Cpu.float_setReg]
  · refine (Guarded.load_put ok).trans (congrArg (load m.bytes k.toNat 8 + ·) ?_)
    exact Cpu.reg_setReg_self _ _ (by decide)

/-- A global word is counted up if it is asked for. -/
theorem runCountWhen (h : Stands a b bcp p x v c m) {on : Bool} {k : UInt64}
    (lay : Lays ⟨v.image.code, place⟩ ctx inStub K S (whenM on (countAt k)) q q' ())
    (above : 0x1000 ≤ k.toNat) (below : k.toNat + 8 ≤ 0x10000)
    (next : ∀ c' m', Stands a b bcp p x v c' m' →
      (∀ r, r ≠ .scratch1 → r ≠ .scratch2 → c'.reg r = c.reg r) →
      (∀ f, c'.float f = c.float f) → m.Changed m' k.toNat (k.toNat + 8) →
      load m'.bytes k.toNat 8 = load m.bytes k.toNat 8 + (if on then 1 else 0) →
      Vm.Arrives P turns (v.moved q' c' m')) : Vm.Arrives P (turns + 3) (v.moved q c m) := by
  cases on with
  | true => exact h.runCountAt lay above below next
  | false =>
    obtain ⟨rfl, -⟩ := lay.ended
    exact .le (next c m h (fun _ _ _ => rfl) (fun _ => rfl) (.refl m _ _) (UInt64.add_zero _).symm)
      (by omega)

/-- The run ends at the number of bytecodes at which it is to stop. -/
theorem runStopAtCount (h : Stands a b bcp p x v c m) {n : UInt64}
    (asked : v.image.settings.stopAt ≠ 0)
    (lay : Lays ⟨v.image.code, place⟩ ctx inStub K S (stopAtCount n) q q' ())
    (next : ∀ c', Stands a b bcp p x v c' m →
      (∀ r, r ≠ .scratch1 → r ≠ .scratch2 → c'.reg r = c.reg r) →
      (∀ f, c'.float f = c.float f) → Vm.Arrives P turns (v.moved q' c' m)) :
    Vm.Arrives P (turns + 6) (v.moved q c m) := by
  unfold stopAtCount at lay
  obtain ⟨goOn, lay⟩ := lay.newLabel_bind
  obtain ⟨i₁, lay⟩ := lay.emit_bind
  obtain ⟨i₂, lay⟩ := lay.emit_bind
  obtain ⟨i₃, lay⟩ := lay.emit_bind
  obtain ⟨i₄, lay⟩ := lay.emit_bind
  obtain ⟨i₅, lay⟩ := lay.emitTo_bind
  obtain ⟨i₆, lay⟩ := lay.emit_bind
  obtain ⟨here, rfl⟩ := lay.bind
  rw [here] at i₅
  have records := h.fits.records
  have ok : m.Open Place.bytecodeCounter 8 := h.open_below (by decide) (by
    change 0x1008 + 8 ≤ _
    omega)
  generalize count : load m.bytes Place.bytecodeCounter.toNat 8 = k
  refine .movImm i₁ <| .loadAt (Cpu.reg_setReg_self _ _ (by decide)) i₂ rfl ok count <|
    .movImm i₃ <| .compare i₄ <| .branchIf i₅ (fun _ => ?_) fun _ =>
      .breakpoint i₆ ok asked
  have spares (f : Flags) := ((((Cpu.Spares.refl c [.scratch1, .scratch2]).setReg
    (r := .scratch1) (by simp) Place.bytecodeCounter).setReg (r := .scratch1) (by simp) k).setReg
      (r := .scratch2) (by simp) n).setFlags f
  exact (next _ (h.spares (spares _) (by decide))
    (fun r h₁ h₂ => (spares _).regs r (by simp [h₁, h₂])) (spares _).floats).le (by omega)

end Stands
end TemplateVm
