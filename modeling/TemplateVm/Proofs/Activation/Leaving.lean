import TemplateVm.Proofs.Activation.Tracing

set_option autoImplicit false
set_option synthInstance.maxSize 100000

/-!
# Leaving an activation

The code that removes an activation looks at its monitors, tells the debugger, and takes the frame
off. A method with nothing to unlock, because it is not synchronized and holds no monitor or because
its entry has not locked it yet, passes the first part with nothing but the thread's byte about its
lock written, and the frame gives its sender back what it has saved.
-/
namespace TemplateVm

open Memory (Guarded load)
open Guest Emit

/-! ## The code in parts -/

namespace Emit

/-- A synchronized method whose monitor record is free already. -/
def reportUnlocked (policy : MonitorPolicy) (unlocked : CodeLabel) : Emit Unit := do
  if policy = .throwing then
    callVm none .throwIllegalMonitorState []
    unreachable
  else
    if policy = .installing then callVm none .newIllegalMonitorState []
    b unlocked

/-- A monitor record that is held although the method is left. -/
def reportHeld (tos : TopOfStack) (policy : MonitorPolicy) (restart : CodeLabel) : Emit Unit := do
  if policy = .throwing then
    callVm none .throwIllegalMonitorState []
    unreachable
  else
    push tos
    unlockObject Register.x1
    pop tos
    if policy = .installing then callVm none .newIllegalMonitorState []
    b restart

/-- The monitor records are looked at one after the other, from the lowest on. -/
def freeMonitors (tos : TopOfStack) (policy : MonitorPolicy) : Emit Unit := do
  let restart ← newLabel
  let next ← newLabel
  let entry ← newLabel
  let held ← newLabel
  bind restart
  ldr Register.x1 (frameSlot Frame.monitorTop)
  add Register.x19 Register.frame Frame.monitorBottom
  b entry
  bind held
  reportHeld tos policy restart
  bind next
  ldr Register.scratch1 (Register.at .x1 Frame.monitorObject)
  cbnz Register.scratch1 held
  add Register.x1 Register.x1 Frame.monitorSize
  bind entry
  cmp Register.x1 Register.x19
  bIf .ne next

/-- The monitor of a synchronized method, then all others, then the debugger and the frame. -/
theorem removeActivation_eq (tos : TopOfStack) (policy : MonitorPolicy) (notify : Bool) :
    removeActivation tos policy notify = (do
      let unlocked ← newLabel
      let unlock ← newLabel
      let noUnlock ← newLabel
      ldrb Register.x3 (threadField ThreadBlock.doNotUnlock)
      strb Register.zero (threadField ThreadBlock.doNotUnlock)
      loadMethod Register.x1
      ldrw Register.x2 (Register.at .x1 MethodRecord.accessFlags)
      tst Register.x2 Access.synchronizedBit.toUInt64
      bIf .eq unlocked
      cbnz Register.x3 noUnlock
      push tos
      add Register.x1 Register.frame Frame.firstMonitor
      ldr Register.x0 (Register.at .x1 Frame.monitorObject)
      cbnz Register.x0 unlock
      pop tos
      reportUnlocked policy unlocked
      bind unlock
      unlockObject Register.x1
      pop tos
      bind unlocked
      freeMonitors tos policy
      bind noUnlock
      whenM notify (notifyExit tos)
      removeFrame) := by
  cases policy <;> cases notify <;>
    simp only [removeActivation, reportUnlocked, freeMonitors, reportHeld, whenM, bind_assoc,
      pure_bind, reduceCtorEq, ↓reduceIte, Bool.false_eq_true]

end Emit

namespace Orderly

variable {ctx : CodeContext} {b : Bool} {K S : List CodeLabel}

instance (policy : MonitorPolicy) (l : CodeLabel) [Known l K] :
    Orderly ctx b K S S 60 (reportUnlocked policy l) := by
  unfold reportUnlocked
  exact upto inferInstance (by decide)

instance (tos : TopOfStack) (policy : MonitorPolicy) (l : CodeLabel) [Known l K] :
    Orderly ctx b K S S 80 (reportHeld tos policy l) := by
  unfold reportHeld
  exact upto inferInstance (by decide)

instance (tos : TopOfStack) (policy : MonitorPolicy) :
    Orderly ctx b K S S 90 (freeMonitors tos policy) := by
  unfold freeMonitors
  exact upto inferInstance (by decide)

end Orderly

/-- Where the parts of the code lie that removes an activation. The method's own monitor is in the
    record next to the frame; a method that is not synchronized goes on at `freed`, and one that must
    not be unlocked at `left`. -/
structure RemovalAt (F : Finished) (ctx : CodeContext) (inStub : Bool) (tos : TopOfStack)
    (policy : MonitorPolicy) (notify : Bool) (q q' pushed unlock popped freed left : UInt64) :
    Prop where
  guarded : F.code.Fetches q (.load .x3 (.base .thread ThreadBlock.doNotUnlock) .byte false)
  clear : F.code.Fetches (q + 4) (.store .zero (.base .thread ThreadBlock.doNotUnlock) .byte)
  method : F.code.Fetches (q + 4 + 4) (.load .x1 (.base .frame Frame.method) .double false)
  flags : F.code.Fetches (q + 4 + 4 + 4)
    (.load .x2 (.base .x1 MethodRecord.accessFlags) .word false)
  test : F.code.Fetches (q + 4 + 4 + 4 + 4) (.test .x2 (.imm Access.synchronizedBit.toUInt64))
  plain : F.code.Fetches (q + 4 + 4 + 4 + 4 + 4) (.branchIf .eq freed)
  keep : F.code.Fetches (q + 4 + 4 + 4 + 4 + 4 + 4) (.branchNonzero .x3 left)
  push : ∃ K S, Lays F ctx inStub K S (push tos) (q + 4 + 4 + 4 + 4 + 4 + 4 + 4) pushed ()
  record : F.code.Fetches pushed (.binary .add .x1 .frame (.imm Frame.firstMonitor))
  object : F.code.Fetches (pushed + 4) (.load .x0 (.base .x1 Frame.monitorObject) .double false)
  held : F.code.Fetches (pushed + 4 + 4) (.branchNonzero .x0 unlock)
  unlocking : ∃ K S, Lays F ctx inStub K S (unlockObject .x1) unlock popped ()
  pop : ∃ K S, Lays F ctx inStub K S (pop tos) popped freed ()
  others : ∃ K S, Lays F ctx inStub K S (freeMonitors tos policy) freed left ()
  rest : ∃ K S, Lays F ctx inStub K S (do whenM notify (notifyExit tos); removeFrame) left q' ()

theorem Lays.removal {F : Finished} {ctx : CodeContext} {inStub : Bool} {K S : List CodeLabel}
    {tos : TopOfStack} {policy : MonitorPolicy} {notify : Bool} {q q' : UInt64}
    (lay : Lays F ctx inStub K S (removeActivation tos policy notify) q q' ()) :
    ∃ pushed unlock popped freed left,
      RemovalAt F ctx inStub tos policy notify q q' pushed unlock popped freed left := by
  rw [removeActivation_eq] at lay
  obtain ⟨unlocked, lay⟩ := lay.newLabel_bind
  obtain ⟨unlock, lay⟩ := lay.newLabel_bind
  obtain ⟨noUnlock, lay⟩ := lay.newLabel_bind
  obtain ⟨guarded, lay⟩ := lay.emit_bind
  obtain ⟨clear, lay⟩ := lay.emit_bind
  obtain ⟨method, lay⟩ := lay.emit_bind
  obtain ⟨flags, lay⟩ := lay.emit_bind
  obtain ⟨test, lay⟩ := lay.emit_bind
  obtain ⟨plain, lay⟩ := lay.emitTo_bind
  obtain ⟨keep, lay⟩ := lay.emitTo_bind
  obtain ⟨⟨⟩, pushed, push, lay⟩ := lay.split
  obtain ⟨record, lay⟩ := lay.emit_bind
  obtain ⟨object, lay⟩ := lay.emit_bind
  obtain ⟨held, lay⟩ := lay.emitTo_bind
  -- the record of the method's own monitor is free
  obtain ⟨⟨⟩, _, -, lay⟩ := lay.split
  obtain ⟨⟨⟩, _, -, lay⟩ := lay.split
  obtain ⟨here₁, lay⟩ := lay.bind_bind
  obtain ⟨⟨⟩, popped, unlocking, lay⟩ := lay.split
  obtain ⟨⟨⟩, freed, pop, lay⟩ := lay.split
  obtain ⟨here₂, lay⟩ := lay.bind_bind
  obtain ⟨⟨⟩, left, others, lay⟩ := lay.split
  obtain ⟨here₃, lay⟩ := lay.bind_bind
  rw [here₁] at held
  rw [here₂] at plain
  rw [here₃] at keep
  exact ⟨_, _, _, _, _, guarded, clear, method, flags, test, plain, keep, ⟨_, _, push⟩, record,
    object, held, ⟨_, _, unlocking⟩, ⟨_, _, pop⟩, ⟨_, _, others⟩, ⟨_, _, lay⟩⟩

/-! ## The monitors -/

namespace Activation

/-- The processor is in the activation, whose parts have their room. -/
structure Placed (a : Activation) (maxLocals maxStack : Nat) (c : Cpu) (m : Guarded) : Prop where
  thread : c.reg .thread = a.thread
  frame : c.reg .frame = a.frame
  fits : a.Fits maxLocals maxStack m

/-- The method is not synchronized, and its activation has `n` monitor records, all of them free. -/
structure Unlocked (a : Activation) (n : Nat) (m : Guarded) : Prop where
  above : 0x1000 ≤ a.method.toNat
  below : a.method.toNat + 16 ≤ a.heap.toNat
  plain : load m.bytes (a.method.toNat + 8) 4 &&& Access.synchronizedBit.toUInt64 = 0
  method : load m.bytes (a.frame.toNat - 24) 8 = a.method
  top : load m.bytes (a.frame.toNat - 64) 8 = a.top
  records : a.top.toNat + 16 * n + 64 = a.frame.toNat
  free : ∀ k < n, load m.bytes (a.top.toNat + 16 * k + 8) 8 = 0

/-- The frame has `n` monitor records, all of them free. -/
structure Freed (a : Activation) (n : Nat) (m : Guarded) : Prop where
  top : load m.bytes (a.frame.toNat - 64) 8 = a.top
  records : a.top.toNat + 16 * n + 64 = a.frame.toNat
  free : ∀ k < n, load m.bytes (a.top.toNat + 16 * k + 8) 8 = 0

/-- The frame has its method, whose flags are in its record. -/
structure Flagged (a : Activation) (flags : UInt64) (m : Guarded) : Prop where
  above : 0x1000 ≤ a.method.toNat
  below : a.method.toNat + 16 ≤ a.heap.toNat
  flags : load m.bytes (a.method.toNat + 8) 4 = flags
  method : load m.bytes (a.frame.toNat - 24) 8 = a.method

/-- There is nothing to unlock: the method is not synchronized and holds no monitor, or its entry has
    not locked it yet. -/
inductive Lockless (a : Activation) (m : Guarded) : Prop
  | free {n : Nat} (unlocked : a.Unlocked n m)
  | unentered (flagged : a.Flagged (load m.bytes (a.method.toNat + 8) 4) m)
    (synchronized : load m.bytes (a.method.toNat + 8) 4 &&& Access.synchronizedBit.toUInt64 ≠ 0)
    (guarded : load m.bytes (a.thread.toNat + 52) 1 ≠ 0)

variable {P : Vm → Prop} {turns : Nat} {v : Vm} {q q' : UInt64} {c c' : Cpu} {m m' : Guarded}
  {a : Activation} {place : CodeLabel → UInt64} {ctx : CodeContext} {inStub : Bool}
  {K S : List CodeLabel} {tos : TopOfStack} {policy : MonitorPolicy} {notify : Bool} {l s n : Nat}
  {flags : UInt64}

theorem Unlocked.freed (h : a.Unlocked n m) : a.Freed n m := ⟨h.top, h.records, h.free⟩

theorem Unlocked.flagged (h : a.Unlocked n m) :
    a.Flagged (load m.bytes (a.method.toNat + 8) 4) m := ⟨h.above, h.below, rfl, h.method⟩

theorem Flagged.agrees (h : a.Flagged flags m) (records : m.Agrees m' 0x1000 a.heap.toNat)
    (method : m.Agrees m' (a.frame.toNat - 24) (a.frame.toNat - 24 + 8)) : a.Flagged flags m' := by
  have above := h.above
  have below := h.below
  exact {
    above, below
    flags := (records.load (by omega) (by omega)).trans h.flags
    method := (method.load (Nat.le_refl _) (Nat.le_refl _)).trans h.method }

/-- Only the record of the method and the words of the frame count. -/
theorem Unlocked.agrees (h : a.Unlocked n m) (records : m.Agrees m' 0x1000 a.heap.toNat)
    (monitors : m.Agrees m' a.top.toNat (a.frame.toNat - 56))
    (method : m.Agrees m' (a.frame.toNat - 24) (a.frame.toNat - 16)) : a.Unlocked n m' := by
  have above := h.above
  have below := h.below
  have extent := h.records
  exact {
    above, below
    plain := by rw [records.load (by omega) (by omega)]; exact h.plain
    method := (method.load (Nat.le_refl _) (by omega)).trans h.method
    top := (monitors.load (by omega) (by omega)).trans h.top
    records := h.records
    free := fun k hk => (monitors.load (by omega) (by omega)).trans (h.free k hk) }

theorem Unlocked.changed {lo hi : Nat} (h : a.Unlocked n m) (hc : m.Changed m' lo hi)
    (above : a.heap.toNat ≤ lo) (outside : hi ≤ a.top.toNat ∨ a.frame.toNat ≤ lo + 16) :
    a.Unlocked n m' := by
  have records := h.records
  exact h.agrees (hc.agrees (.inl above)) (hc.agrees (by omega)) (hc.agrees (by omega))

/-- The thread's words about the last frame do not count. -/
theorem Lockless.changed {lo hi : Nat} (h : a.Lockless m) (fits : a.Fits l s m)
    (hc : m.Changed m' lo hi) (above : a.thread.toNat + 8 ≤ lo) (below : hi ≤ a.thread.toNat + 48) :
    a.Lockless m' := by
  have heap := fits.heap
  have thread := fits.thread
  have operands := fits.operands
  have top := fits.top
  cases h with
  | free unlocked => exact .free (unlocked.changed hc (by omega) (.inl (by omega)))
  | unentered flagged synchronized guarded =>
    have start := flagged.above
    have record := flagged.below
    have same : load m'.bytes (a.method.toNat + 8) 4 = load m.bytes (a.method.toNat + 8) 4 :=
      (hc.agrees (s := 0x1000) (t := a.heap.toNat) (by omega)).load (by omega) (by omega)
    refine .unentered ?_ (same ▸ synchronized) ?_
    · rw [same]
      exact flagged.agrees (hc.agrees (by omega)) (hc.agrees (by omega))
    · rw [(hc.agrees (s := a.thread.toNat + 52) (t := a.thread.toNat + 53) (by omega)).load
        (Nat.le_refl _) (Nat.le_refl _)]
      exact guarded

namespace Placed

theorem of_stands {b : Program} {bcp p : UInt64} {x : Contents} (h : Stands a b bcp p x v c m) :
    a.Placed b.maxLocals b.maxStack c m := ⟨h.registers.thread, h.registers.frame, h.fits⟩

theorem spares {rs : List Register} (h : a.Placed l s c m) (spares : c.Spares c' rs)
    (thread : .thread ∉ rs) (frame : .frame ∉ rs) : a.Placed l s c' m :=
  ⟨(spares.regs _ thread).trans h.thread, (spares.regs _ frame).trans h.frame, h.fits⟩

theorem changed {lo hi : Nat} (h : a.Placed l s c m) (hc : m.Changed m' lo hi) :
    a.Placed l s c m' := ⟨h.thread, h.frame, h.fits.changed hc⟩

theorem runThreadLoad (h : a.Placed l s c m) {r : Register} {k w : UInt64} {n : Width}
    (i : v.image.code.Fetches q (.load r (.base .thread k) n false))
    (inside : k.toNat + n.bytes.toNat ≤ 0x1000)
    (holds : load m.bytes (a.thread.toNat + k.toNat) n.bytes.toNat = w)
    (next : Vm.Arrives P turns (v.moved (q + 4) (c.setReg r w) m)) :
    Vm.Arrives P (turns + 1) (v.moved q c m) := by
  obtain ⟨address, ok⟩ := h.fits.threadField inside
  exact .loadAt h.thread i address ok holds next

theorem runThreadStore (h : a.Placed l s c m) {r : Register} {k : UInt64} {n : Width}
    (i : v.image.code.Fetches q (.store r (.base .thread k) n))
    (inside : k.toNat + n.bytes.toNat ≤ 0x1000)
    (next : Vm.Arrives P turns (v.moved (q + 4) c (m.put (a.thread + k) n.bytes (c.reg r)))) :
    Vm.Arrives P (turns + 1) (v.moved q c m) := by
  obtain ⟨-, ok⟩ := h.fits.threadField inside
  exact .storeAt h.thread i ok next

/-- A word of the frame about the method is loaded. -/
theorem runFrameLoad (h : a.Placed l s c m) {r : Register} {k w : UInt64}
    (i : v.image.code.Fetches q (.load r (.base .frame (-k)) .double false))
    (hk : k.toNat ≤ 64) (pos : 8 ≤ k.toNat) (holds : load m.bytes (a.frame.toNat - k.toNat) 8 = w)
    (next : Vm.Arrives P turns (v.moved (q + 4) (c.setReg r w) m)) :
    Vm.Arrives P (turns + 1) (v.moved q c m) := by
  obtain ⟨address, ok⟩ := h.fits.frameSlot hk pos
  exact .loadAt h.frame i address ok holds next

/-- A word of the frame about the method is stored. -/
theorem runFrameStore (h : a.Placed l s c m) {r : Register} {k : UInt64}
    (i : v.image.code.Fetches q (.store r (.base .frame (-k)) .double)) (hk : k.toNat ≤ 64)
    (pos : 8 ≤ k.toNat)
    (next : m.Changed (m.put (a.frame + -k) 8 (c.reg r)) (a.frame.toNat - k.toNat)
        (a.frame.toNat - k.toNat + 8) →
      Vm.Arrives P turns (v.moved (q + 4) c (m.put (a.frame + -k) 8 (c.reg r)))) :
    Vm.Arrives P (turns + 1) (v.moved q c m) := by
  obtain ⟨address, ok⟩ := h.fits.frameSlot hk pos
  have eight : (8 : UInt64).toNat = 8 := rfl
  have changed := Guarded.changed_put m (a.frame + -k) 8 (c.reg r)
  rw [address, eight] at changed
  exact .storeAt h.frame i ok (next changed)

/-- Where the loop over the records has come to, `j` of them are left. All are free, so that it goes
    on to its end. -/
theorem runRecords {r held : UInt64} {j : Nat} (h : a.Placed l s c m) (freed : a.Freed n m)
    (i₁ : v.image.code.Fetches r (.load .scratch1 (.base .x1 8) .double false))
    (i₂ : v.image.code.Fetches (r + 4) (.branchNonzero .scratch1 held))
    (i₃ : v.image.code.Fetches (r + 4 + 4) (.binary .add .x1 .x1 (.imm 16)))
    (i₄ : v.image.code.Fetches (r + 4 + 4 + 4) (.compare .x1 (.reg .x19)))
    (i₅ : v.image.code.Fetches (r + 4 + 4 + 4 + 4) (.branchIf .ne r))
    (bottom : c.reg .x19 = a.frame + -64) (left : j ≤ n)
    (here : (c.reg .x1).toNat + 16 * j + 64 = a.frame.toNat)
    (next : ∀ c', c.Spares c' [.x1, .scratch1] →
      Vm.Arrives P turns (v.moved (r + 4 + 4 + 4 + 4 + 4) c' m)) :
    Vm.Arrives P (turns + (5 * j + 2)) (v.moved (r + 4 + 4 + 4) c m) := by
  have sixtyFour : (64 : UInt64).toNat = 64 := rfl
  have stop : (a.frame + -64).toNat = a.frame.toNat - 64 := toNat_add_neg (by omega)
  induction j generalizing c with
  | zero =>
    have same : c.reg .x1 = c.reg .x19 := by
      rw [bottom, ← UInt64.toNat_inj, stop]
      omega
    have ends : Condition.ne.holds (.ofCompare (c.reg .x1) (c.reg .x19)) = false := by
      rw [Condition.holds_ne, same, bne_self_eq_false]
    refine .compare i₄ (.branchIf i₅ (fun on => ?_) fun _ => next _ ((Cpu.Spares.refl c _).setFlags _))
    exact absurd (ends.symm.trans on) Bool.false_ne_true
  | succ j ih =>
    have records := freed.records
    have differ : c.reg .x1 ≠ c.reg .x19 := by
      rw [bottom, ← UInt64.toNat_inj.ne, stop]
      omega
    have again : Condition.ne.holds (.ofCompare (c.reg .x1) (c.reg .x19)) = true := by
      rw [Condition.holds_ne, bne_iff_ne]
      exact differ
    refine .compare i₄ (.branchIf i₅ (fun _ => ?_) fun off =>
      absurd (off.symm.trans again) Bool.false_ne_true)
    have eight : (8 : UInt64).toNat = 8 := rfl
    have sixteen : (16 : UInt64).toNat = 16 := rfl
    have bound := a.frame.toNat_lt
    have operands := h.fits.operands
    have frame := h.fits.frame
    have object : (c.reg .x1 + 8).toNat = (c.reg .x1).toNat + 8 := toNat_add_of_lt (by omega)
    have following : (c.reg .x1 + 16).toNat = (c.reg .x1).toNat + 16 := toNat_add_of_lt (by omega)
    have free : load m.bytes ((c.reg .x1).toNat + 8) 8 = 0 := by
      have := freed.free (n - (j + 1)) (by omega)
      rwa [show a.top.toNat + 16 * (n - (j + 1)) = (c.reg .x1).toNat by omega] at this
    refine .loadAt (Cpu.reg_setFlags ..) i₁ object ?_ free ?_
    · exact h.fits.clearStack.open (by omega) (by
        change (c.reg .x1 + 8).toNat + 8 ≤ _
        omega)
    refine .branchNonzero i₂ (fun some => ?_) fun _ => .binary i₃ ?_
    · rw [Cpu.reg_setReg_self _ _ (by decide)] at some
      exact absurd rfl some
    rw [Cpu.reg_setReg_ne _ _ (by decide), Cpu.reg_setFlags]
    have spares : c.Spares (((c.setFlags (.ofCompare (c.reg .x1) (c.reg .x19))).setReg .scratch1
        0).setReg .x1 (c.reg .x1 + 16)) [.x1, .scratch1] :=
      (((Cpu.Spares.refl c _).setFlags _).setReg (by simp) 0).setReg (by simp) _
    refine ih (h.spares spares (by decide) (by decide)) ((spares.regs _ (by decide)).trans bottom)
      (by omega) ?_ fun c' h' => next c' (spares.trans h')
    rw [Cpu.reg_setReg_self _ _ (by decide)]
    change (c.reg .x1 + 16).toNat + 16 * j + 64 = _
    omega

/-- Records that are all free are passed. -/
theorem runFreeMonitors (h : a.Placed l s c m) (freed : a.Freed n m)
    (lay : Lays ⟨v.image.code, place⟩ ctx inStub K S (freeMonitors tos policy) q q' ())
    (next : ∀ c', c.Spares c' [.x1, .x19, .scratch1] → Vm.Arrives P turns (v.moved q' c' m)) :
    Vm.Arrives P (turns + (5 * n + 5)) (v.moved q c m) := by
  unfold freeMonitors at lay
  obtain ⟨restart, lay⟩ := lay.newLabel_bind
  obtain ⟨again, lay⟩ := lay.newLabel_bind
  obtain ⟨entry, lay⟩ := lay.newLabel_bind
  obtain ⟨held, lay⟩ := lay.newLabel_bind
  obtain ⟨-, lay⟩ := lay.bind_bind
  obtain ⟨i₁, lay⟩ := lay.emit_bind
  obtain ⟨i₂, lay⟩ := lay.emit_bind
  obtain ⟨i₃, lay⟩ := lay.emitTo_bind
  obtain ⟨-, lay⟩ := lay.bind_bind
  obtain ⟨⟨⟩, r, -, lay⟩ := lay.split
  obtain ⟨start, lay⟩ := lay.bind_bind
  obtain ⟨i₄, lay⟩ := lay.emit_bind
  obtain ⟨i₅, lay⟩ := lay.emitTo_bind
  obtain ⟨i₆, lay⟩ := lay.emit_bind
  obtain ⟨inside, lay⟩ := lay.bind_bind
  obtain ⟨i₇, lay⟩ := lay.emit_bind
  obtain ⟨i₈, rfl⟩ := lay.emitTo
  rw [inside] at i₃
  rw [start] at i₈
  have records := freed.records
  refine h.runFrameLoad i₁ (by decide) (by decide) freed.top (.binary i₂ (.branch i₃ ?_))
  have spares : c.Spares ((c.setReg .x1 a.top).setReg .x19 (a.frame + -64))
      [.x1, .x19, .scratch1] := ((Cpu.Spares.refl c _).setReg (by simp) _).setReg (by simp) _
  rw [Cpu.reg_setReg_ne _ _ (by decide), h.frame]
  change Vm.Arrives P _ (v.moved _ ((c.setReg .x1 a.top).setReg .x19 (a.frame + -64)) m)
  refine (h.spares spares (by decide) (by decide)).runRecords freed i₄ i₅ i₆ i₇ i₈ ?_
    (Nat.le_refl n) ?_ fun c' h' => next c' (spares.trans (h'.mono (by simp)))
  · exact Cpu.reg_setReg_self _ _ (by decide)
  · rw [Cpu.reg_setReg_ne _ _ (by decide), Cpu.reg_setReg_self _ _ (by decide)]
    omega

/-- The thread's byte about the lock is cleared, and the flags of the method are tested. -/
theorem runBeginRemoval {pushed unlock popped freed left : UInt64} (h : a.Placed l s c m)
    (flagged : a.Flagged flags m)
    (laid : RemovalAt ⟨v.image.code, place⟩ ctx inStub tos policy notify q q' pushed unlock popped
      freed left)
    (plain : flags &&& Access.synchronizedBit.toUInt64 = 0 → ∀ c' m',
      c.Spares c' [.x1, .x2, .x3] → m.Changed m' (a.thread.toNat + 52) (a.thread.toNat + 53) →
      Vm.Arrives P turns (v.moved freed c' m'))
    (keep : flags &&& Access.synchronizedBit.toUInt64 ≠ 0 →
      load m.bytes (a.thread.toNat + 52) 1 ≠ 0 → ∀ c' m', c.Spares c' [.x1, .x2, .x3] →
      m.Changed m' (a.thread.toNat + 52) (a.thread.toNat + 53) →
        Vm.Arrives P turns (v.moved left c' m'))
    (held : flags &&& Access.synchronizedBit.toUInt64 ≠ 0 →
      load m.bytes (a.thread.toNat + 52) 1 = 0 → ∀ c' m', c.Spares c' [.x1, .x2, .x3] →
      m.Changed m' (a.thread.toNat + 52) (a.thread.toNat + 53) →
      Vm.Arrives P turns (v.moved (q + 4 + 4 + 4 + 4 + 4 + 4 + 4) c' m')) :
    Vm.Arrives P (turns + 7) (v.moved q c m) := by
  have thread := h.fits.thread
  have heap := h.fits.heap
  have operands := h.fits.operands
  have top := h.fits.top
  have frame := h.fits.frame
  have above := flagged.above
  have below := flagged.below
  have bound := a.heap.toNat_lt
  have eight : (8 : UInt64).toNat = 8 := rfl
  have four : Width.word.bytes.toNat = 4 := rfl
  have one : Width.byte.bytes.toNat = 1 := rfl
  have lock : (a.thread + ThreadBlock.doNotUnlock).toNat = a.thread.toNat + 52 :=
    (h.fits.threadField (k := ThreadBlock.doNotUnlock) (w := 1) (by decide)).1
  have access : (a.method + 8).toNat = a.method.toNat + 8 := toNat_add_of_lt (by omega)
  refine h.runThreadLoad laid.guarded (by decide) rfl ?_
  change Vm.Arrives P _ (v.moved _ (c.setReg .x3 (load m.bytes (a.thread.toNat + 52) 1)) m)
  generalize load m.bytes (a.thread.toNat + 52) 1 = byte at keep held ⊢
  have spares₁ : c.Spares (c.setReg .x3 byte) [.x1, .x2, .x3] :=
    (Cpu.Spares.refl c _).setReg (by simp) _
  have h₁ := h.spares spares₁ (by decide) (by decide)
  refine h₁.runThreadStore laid.clear (by decide) ?_
  generalize hm : m.put _ _ _ = m₁
  have changed : m.Changed m₁ (a.thread.toNat + 52) (a.thread.toNat + 53) := by
    rw [← hm]
    exact (Guarded.changed_put m _ _ _).mono (by omega) (by omega)
  have flagged₁ := flagged.agrees (changed.agrees (.inl (by omega))) (changed.agrees (by omega))
  have h₂ := h₁.changed changed
  refine h₂.runFrameLoad laid.method (by decide) (by decide) flagged₁.method <|
    .loadAt (Cpu.reg_setReg_self _ _ (by decide)) laid.flags access ?_ flagged₁.flags <|
      .test laid.test ?_
  · exact h₂.fits.clear.open (by change _ ≤ (a.method + 8).toNat; omega)
      (by change (a.method + 8).toNat + _ ≤ _; omega)
  generalize hc : ((c.setReg .x3 byte).setReg .x1 a.method).setReg .x2 flags = c₂
  have x2 : c₂.reg .x2 = flags := hc ▸ Cpu.reg_setReg_self _ _ (by decide)
  have x3 : c₂.reg .x3 = byte := by
    rw [← hc, Cpu.reg_setReg_ne _ _ (by decide), Cpu.reg_setReg_ne _ _ (by decide),
      Cpu.reg_setReg_self _ _ (by decide)]
  have spares₂ : c.Spares c₂ [.x1, .x2, .x3] :=
    hc ▸ (spares₁.setReg (by simp) _).setReg (by simp) _
  have zero : Condition.eq.holds (.ofTest (c₂.reg .x2 &&& c₂.operand
      (.imm Access.synchronizedBit.toUInt64))) =
      (flags &&& Access.synchronizedBit.toUInt64 == 0) := by
    rw [x2]
    rfl
  refine .branchIf laid.plain (fun on => ?_) fun off => ?_
  · have zero := beq_iff_eq.mp (zero.symm.trans on)
    exact (plain zero _ m₁ (spares₂.setFlags _) changed).le (by omega)
  have set := beq_eq_false_iff_ne.mp (zero.symm.trans off)
  refine .branchNonzero laid.keep (fun some => ?_) fun none => ?_
  · exact keep set (fun none => some (x3.trans none)) _ m₁ (spares₂.setFlags _) changed
  · exact held set (x3.symm.trans none) _ m₁ (spares₂.setFlags _) changed

/-- A method that has nothing to unlock goes on to the debugger and to its frame. -/
theorem runUnlock (h : a.Placed l s c m) (lockless : a.Lockless m)
    (lay : Lays ⟨v.image.code, place⟩ ctx inStub K S (removeActivation tos policy notify) q q' ())
    (next : ∀ c' m' K' S' r, Lays ⟨v.image.code, place⟩ ctx inStub K' S' (do
        whenM notify (notifyExit tos)
        removeFrame) r q' () → c.Spares c' [.x1, .x2, .x3, .x19, .scratch1] →
      m.Changed m' (a.thread.toNat + 52) (a.thread.toNat + 53) →
      Vm.Arrives P turns (v.moved r c' m')) :
    Vm.Arrives P (turns + (a.frame.toNat - a.top.toNat)) (v.moved q c m) := by
  obtain ⟨pushed, unlock, popped, freed, left, laid⟩ := lay.removal
  obtain ⟨_, _, others⟩ := laid.others
  obtain ⟨_, _, rest⟩ := laid.rest
  have thread := h.fits.thread
  have heap := h.fits.heap
  have operands := h.fits.operands
  cases lockless with
  | @free n unlocked =>
    have records := unlocked.records
    suffices arrives : Vm.Arrives P (turns + (5 * n + 5) + 7) (v.moved q c m) from
      arrives.le (by omega)
    refine h.runBeginRemoval unlocked.flagged laid (fun _ c₁ m₁ spares₁ changed => ?_)
      (fun set => absurd unlocked.plain set) fun set => absurd unlocked.plain set
    have unlocked₁ := unlocked.changed changed (by omega) (.inl (by omega))
    have h₁ := (h.changed changed).spares spares₁ (by decide) (by decide)
    exact h₁.runFreeMonitors unlocked₁.freed others fun c' spares₂ => next c' m₁ _ _ _ rest
      ((spares₁.mono (by simp)).trans (spares₂.mono (by simp))) changed
  | unentered flagged synchronized guarded =>
    have top := h.fits.top
    suffices arrives : Vm.Arrives P (turns + 7) (v.moved q c m) from arrives.le (by omega)
    exact h.runBeginRemoval flagged laid (fun plain => absurd plain synchronized)
      (fun _ _ c' m' spares changed => next c' m' _ _ _ rest (spares.mono (by simp)) changed)
      fun _ free => absurd free guarded

end Placed
end Activation

/-! ## The frame -/

/-- What the sender of an activation gets back when the frame is removed. -/
structure Sender where
  frame : UInt64
  operands : UInt64
  sp : UInt64
  /-- Where the activation returns to. -/
  link : UInt64

/-- The registers of a processor that is back with the sender. -/
structure Sender.Resumed (sender : Sender) (c : Cpu) : Prop where
  frame : c.reg .frame = sender.frame
  operands : c.reg .operands = sender.operands
  sp : c.reg .sp = sender.sp
  link : c.reg .link = sender.link

/-- The frame with the address has saved the registers of the sender. -/
structure Sender.SavedAt (sender : Sender) (fp : UInt64) (m : Guarded) : Prop where
  frame : load m.bytes fp.toNat 8 = sender.frame
  link : load m.bytes (fp.toNat + 8) 8 = sender.link
  sp : load m.bytes (fp.toNat + 16) 8 = sender.sp
  operands : load m.bytes (fp.toNat - 8) 8 = sender.operands

theorem Sender.SavedAt.agrees {sender : Sender} {fp : UInt64} {m m' : Guarded}
    (h : sender.SavedAt fp m) (ha : m.Agrees m' (fp.toNat - 8) (fp.toNat + 24)) :
    sender.SavedAt fp m' where
  frame := (ha.load (by omega) (by omega)).trans h.frame
  link := (ha.load (by omega) (by omega)).trans h.link
  sp := (ha.load (by omega) (by omega)).trans h.sp
  operands := (ha.load (by omega) (by omega)).trans h.operands

/-- The sender gets back what the frame has saved. -/
theorem Sender.SavedAt.runRemoveFrame {P : Vm → Prop} {turns : Nat} {v : Vm} {q q' : UInt64}
    {c : Cpu} {m : Guarded} {place : CodeLabel → UInt64} {ctx : CodeContext} {inStub : Bool}
    {K S : List CodeLabel} {sender : Sender} {fp : UInt64} (saved : sender.SavedAt fp m)
    (frame : c.reg .frame = fp) (clear : m.Clear (fp.toNat - 8) (fp.toNat + 24))
    (low : 8 ≤ fp.toNat) (high : fp.toNat + 24 ≤ 2 ^ 64)
    (lay : Lays ⟨v.image.code, place⟩ ctx inStub K S removeFrame q q' ())
    (next : ∀ c', sender.Resumed c' → c.Spares c' [.operands, .frame, .link, .sp, .scratch1] →
      Vm.Arrives P turns (v.moved q' c' m)) : Vm.Arrives P (turns + 5) (v.moved q c m) := by
  unfold Emit.removeFrame at lay
  replace lay := lay.comment_bind
  obtain ⟨i₁, lay⟩ := lay.emit_bind
  obtain ⟨i₂, lay⟩ := lay.emit_bind
  obtain ⟨i₃, lay⟩ := lay.emit_bind
  obtain ⟨i₄, lay⟩ := lay.emit_bind
  obtain ⟨i₅, rfl⟩ := lay.emit
  have eight : (8 : UInt64).toNat = 8 := rfl
  have sixteen : (16 : UInt64).toNat = 16 := rfl
  have below : (fp + -8).toNat = fp.toNat - 8 := toNat_add_neg (by omega)
  have second : (fp + 8).toNat = fp.toNat + 8 := toNat_add_of_lt (by omega)
  have third : (fp + 16).toNat = fp.toNat + 16 := toNat_add_of_lt (by omega)
  refine .loadAt frame i₁ below ?_ saved.operands ?_
  · exact clear.open (by change _ ≤ (fp + -8).toNat; omega)
      (by change (fp + -8).toNat + 8 ≤ _; omega)
  refine .mov i₂ (.loadPair i₃ ?_ ?_ ?_)
  · simp +decide only [Cpu.target_post, Cpu.reg_setReg, frame, ↓reduceIte]
    exact clear.open (by omega) (by omega)
  · simp +decide only [Cpu.target_post, Cpu.reg_setReg, frame, ↓reduceIte]
    exact clear.open (by omega) (by omega)
  simp +decide only [Cpu.target_post, Cpu.rebase_post, Cpu.reg_setReg, frame, ↓reduceIte, second,
    saved.frame, saved.link]
  have sp : (((((c.setReg .operands sender.operands).setReg .sp fp).setReg .sp
      (fp + 16)).setReg .frame sender.frame).setReg .link sender.link).reg .sp = fp + 16 := by
    simp +decide only [Cpu.reg_setReg, ↓reduceIte]
  refine .loadAt sp i₄ (by rw [UInt64.add_zero, third]) ?_ saved.sp (.mov i₅ (next _ ?_ ?_))
  · rw [UInt64.add_zero]
    exact clear.open (by omega) (by change _ + 8 ≤ _; omega)
  · constructor <;> simp +decide only [Cpu.reg_setReg, ↓reduceIte]
  · have spares := (((Cpu.Spares.refl c [.operands, .frame, .link, .sp, .scratch1]).setReg
      (r := .operands) (by simp) sender.operands).setReg (r := .sp) (by simp) fp).setReg
        (r := .sp) (by simp) (fp + 16)
    exact (((spares.setReg (r := .frame) (by simp) _).setReg (r := .link) (by simp) _).setReg
      (r := .scratch1) (by simp) _).setReg (r := .sp) (by simp) _

namespace Activation

variable {P : Vm → Prop} {turns : Nat} {v : Vm} {q q' : UInt64} {c : Cpu} {m m' : Guarded}
  {a : Activation} {place : CodeLabel → UInt64} {ctx : CodeContext} {inStub : Bool}
  {K S : List CodeLabel} {tos : TopOfStack} {policy : MonitorPolicy} {l s n : Nat} {sender : Sender}

/-- The frame has saved the registers of its sender. -/
structure SentBy (a : Activation) (sender : Sender) (m : Guarded) : Prop where
  frame : load m.bytes a.frame.toNat 8 = sender.frame
  link : load m.bytes (a.frame.toNat + 8) 8 = sender.link
  sp : load m.bytes (a.frame.toNat + 16) 8 = sender.sp
  operands : load m.bytes (a.frame.toNat - 8) 8 = sender.operands
  within : a.frame.toNat + 16 ≤ a.locals.toNat

theorem SentBy.agrees (h : a.SentBy sender m)
    (ha : m.Agrees m' (a.frame.toNat - 8) (a.frame.toNat + 24)) : a.SentBy sender m' where
  frame := (ha.load (by omega) (by omega)).trans h.frame
  link := (ha.load (by omega) (by omega)).trans h.link
  sp := (ha.load (by omega) (by omega)).trans h.sp
  operands := (ha.load (by omega) (by omega)).trans h.operands
  within := h.within

theorem SentBy.saved (h : a.SentBy sender m) : sender.SavedAt a.frame m :=
  ⟨h.frame, h.link, h.sp, h.operands⟩

/-- The sender gets back what the frame has saved. -/
theorem Placed.runRemoveFrame (h : a.Placed l s c m) (sent : a.SentBy sender m)
    (lay : Lays ⟨v.image.code, place⟩ ctx inStub K S removeFrame q q' ())
    (next : ∀ c', sender.Resumed c' → c.Spares c' [.operands, .frame, .link, .sp, .scratch1] →
      Vm.Arrives P turns (v.moved q' c' m)) : Vm.Arrives P (turns + 5) (v.moved q c m) := by
  have within := sent.within
  have bound := h.fits.locals
  have low := h.fits.operands
  have top := h.fits.top
  exact sent.saved.runRemoveFrame h.frame (h.fits.clearStack.mono (by omega) (by omega)) (by omega)
    (by omega) lay next

/-- Without a word to the debugger, the activation of a method that has nothing to unlock is
    removed. -/
theorem Placed.runRemoveQuietly (h : a.Placed l s c m) (lockless : a.Lockless m)
    (sent : a.SentBy sender m)
    (lay : Lays ⟨v.image.code, place⟩ ctx inStub K S (removeActivation tos policy false) q q' ())
    (next : ∀ c' m', sender.Resumed c' →
      c.Spares c' [.x1, .x2, .x3, .x19, .scratch1, .operands, .frame, .link, .sp] →
      m.Changed m' (a.thread.toNat + 52) (a.thread.toNat + 53) →
      Vm.Arrives P turns (v.moved q' c' m')) :
    Vm.Arrives P (turns + 5 + (a.frame.toNat - a.top.toNat)) (v.moved q c m) := by
  have thread := h.fits.thread
  have operands := h.fits.operands
  have top := h.fits.top
  refine h.runUnlock lockless lay fun c₁ m₁ K₁ S₁ r lay spares₁ changed₁ => ?_
  obtain ⟨⟨⟩, r₁, untold, removed⟩ := lay.split
  obtain ⟨rfl, -⟩ := Lays.ended untold
  have h₁ := (h.changed changed₁).spares spares₁ (by decide) (by decide)
  refine h₁.runRemoveFrame (sent.agrees (changed₁.agrees (.inr (by omega)))) removed
    fun c₂ resumed spares₂ => next c₂ m₁ resumed ?_ changed₁
  exact (spares₁.mono (by decide)).trans (spares₂.mono (by decide))

end Activation
end TemplateVm
