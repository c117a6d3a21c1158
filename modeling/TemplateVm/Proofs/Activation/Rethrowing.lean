import TemplateVm.Proofs.Activation.Raising
import TemplateVm.Proofs.Calls.Entering

set_option autoImplicit false
set_option synthInstance.maxSize 100000

/-!
# Exceptions from callees and from services

An exception that leaves a callee, or that a service has posted, is looked up with the bytecode that
the frame of the activation keeps. A call of a service puts the bytecode of its own there. The code for
an overflow of the stack takes what was put there last instead, whatever has been done since.
-/
namespace TemplateVm

open Memory (Guarded load)
open Guest Emit

namespace Emit

/-- The pending exception is taken to where exceptions go that come with the return address. -/
def taking : Emit Unit := do
  mov Register.x1 Register.link
  mov Register.x19 Register.link
  callLeaf .handlerForReturnAddress [.thread, Register.x1]
  mov Register.link Register.x19
  mov Register.x3 Register.x19
  mov Register.x19 Register.x0
  ldr Register.x0 (threadField ThreadBlock.pendingException)
  str Register.zero (threadField ThreadBlock.pendingException)
  Emit.verifyReference Register.x0
  br Register.x19

/-- An overflow of the stack is posted with the bytecode that is in the frame. -/
def overflowing : Emit Unit := do
  restoreBytecode
  emptyOperands
  callVm none .throwStackOverflow []
  unreachable

end Emit

/-! ## Posted exceptions -/

namespace Vm

variable {P : Vm → Prop} {turns : Nat} {v : Vm} {q q' e thread : UInt64} {c : Cpu} {m m' : Guarded}
  {place : CodeLabel → UInt64} {ctx : CodeContext} {inStub : Bool} {K S : List CodeLabel}

/-- After a service that has posted an exception, the exception is forwarded. -/
theorem runResumePosted {result : Option Register} (own : c.reg .thread = thread)
    (reached : ThreadBlock.Reached ⟨thread⟩ m) (pending : load m.bytes thread.toNat 8 = e)
    (some : e ≠ 0) (idle : load m.bytes (thread.toNat + 48) 4 &&& 1 = 0)
    (lay : Lays ⟨v.image.code, place⟩ ctx inStub K S (resumeGuest result) q q' ())
    (next : ∀ c' m', c.Spares c' [.scratch1] →
      m.Changed m' (thread.toNat + 16) (thread.toNat + 40) →
      Vm.Arrives P turns (v.moved ctx.forwardException c' m')) :
    Vm.Arrives P (turns + 11) (v.moved q c m) :=
  runAfterService own reached lay (fun _ _ _ _ asks => absurd idle asks.pending)
    (fun c₁ m₁ _ _ => next c₁ m₁) fun _ _ _ _ none => absurd (pending.symm.trans none) some

end Vm

namespace Stands

variable {P : Vm → Prop} {turns : Nat} {v : Vm} {q q' r : UInt64} {c : Cpu} {m m' : Guarded}
  {a : Activation} {b : Program} {bcp bcp' p e : UInt64} {x : Contents} {place : CodeLabel → UInt64}
  {ctx : CodeContext} {inStub : Bool} {K S : List CodeLabel} {id : MethodId} {thrown : ClassId}
  {pointer : UInt64}

/-! ## Out of a callee -/

/-- The activation has its registers again, with the bytecode that is in its frame. -/
theorem runRegaining {c₀ : Cpu} (caller : Stands a b bcp p x v c₀ m)
    (thread : c.reg .thread = a.thread) (frame : c.reg .frame = a.frame)
    (operands : c.reg .operands = p) (sp : c.reg .sp = a.sp)
    (saved : load m.bytes (a.frame.toNat - 56) 8 = bcp')
    (lay : Lays ⟨v.image.code, place⟩ ctx inStub K S regaining q q' ())
    (next : ∀ c' m', Stands a b bcp' p x v c' m' →
      c.Spares c' [.bytecode, .locals, .cache, .dispatch] →
      m.Changed m' (a.frame.toNat - 16) (a.frame.toNat - 8) →
      Vm.Arrives P turns (v.moved q' c' m')) : Vm.Arrives P (turns + 5) (v.moved q c m) := by
  unfold regaining at lay
  obtain ⟨i₁, lay⟩ := lay.emit_bind
  obtain ⟨i₂, lay⟩ := Lays.emit_bind
    (i := .load .bytecode (.base .frame Frame.bytecode) .double false) lay
  obtain ⟨i₃, lay⟩ := Lays.emit_bind (i := .load .locals (.base .frame Frame.locals) .double false) lay
  obtain ⟨i₄, lay⟩ := Lays.emit_bind (i := .load .cache (.base .frame Frame.cache) .double false) lay
  obtain ⟨i₅, rfl⟩ := Lays.emit (i := .movImm .dispatch Place.activeTable) lay
  have room := caller.fits.thread
  have under := caller.fits.operands
  have top := caller.fits.top
  have placed : a.Placed b.maxLocals b.maxStack c m := ⟨thread, frame, caller.fits⟩
  refine placed.runFrameStore i₁ (by decide) (by decide) fun changed => ?_
  generalize m.put _ 8 _ = m₁ at changed ⊢
  change m.Changed m₁ (a.frame.toNat - 16) (a.frame.toNat - 16 + 8) at changed
  rw [show a.frame.toNat - 16 + 8 = a.frame.toNat - 8 by omega] at changed
  have waits : Stands a b bcp p x v c₀ m₁ := caller.apart changed (.inr (by omega))
    (caller.idle.agrees (changed.agrees (by omega)) (changed.agrees (by omega)))
  have spares₁ := (Cpu.Spares.refl c [.bytecode, .locals, .cache, .dispatch]).setReg
    (r := .bytecode) (by simp) bcp'
  have spares₂ := spares₁.setReg (r := .locals) (by simp) a.locals
  have spares₃ := spares₂.setReg (r := .cache) (by simp) a.cache
  have spares₄ := spares₃.setReg (r := .dispatch) (by simp) Place.activeTable
  have placed₁ : a.Placed b.maxLocals b.maxStack c m₁ := placed.changed changed
  refine placed₁.runFrameLoad i₂ (by decide) (by decide) (w := bcp') ?_ ?_
  · rw [← saved]
    exact (changed.agrees (s := a.frame.toNat - 56) (t := a.frame.toNat - 48) (by omega)).load
      (Nat.le_refl _) (by change a.frame.toNat - 56 + 8 ≤ _; omega)
  refine (placed₁.spares spares₁ (by decide) (by decide)).runFrameLoad i₃ (by decide) (by decide)
    waits.framed.locals ?_
  refine (placed₁.spares spares₂ (by decide) (by decide)).runFrameLoad i₄ (by decide) (by decide)
    waits.framed.cache (.movImm i₅ ?_)
  refine next _ m₁ ((waits.setBytecode bcp').withRegisters ⟨(spares₄.regs _ (by decide)).trans thread,
    (spares₄.regs _ (by decide)).trans frame, ?_, ?_, ?_, (spares₄.regs _ (by decide)).trans sp, ?_,
    (spares₄.regs _ (by decide)).trans operands⟩) spares₄ changed <;>
    simp +decide only [Cpu.reg_setReg, ↓reduceIte]

/-- An exception that leaves a callee has a handler looked for with the bytecode that is in the frame
    of the caller. -/
theorem runRethrow {c₀ : Cpu} (caller : Stands a b bcp p x v c₀ m)
    (throws : a.Throws b x.heap id e thrown)
    (thread : c.reg .thread = a.thread) (frame : c.reg .frame = a.frame)
    (operands : c.reg .operands = p) (sp : c.reg .sp = a.sp) (held : c.reg .x0 = e)
    (saved : load m.bytes (a.frame.toNat - 56) 8 = bcp')
    (roomy : a.Roomy ctx.settings b.maxStack) (room : 0 < b.maxStack)
    (measured : a.Measured 4 pointer m)
    (regained : Lays ⟨v.image.code, place⟩ ctx inStub K S regaining q r ())
    (searched : Lays ⟨v.image.code, place⟩ ctx inStub K S searching r q' ())
    (next : ∀ target handler c' m', a.GoesOn b v.image id bcp' thrown target handler →
      Stands { a with sp := pointer } b handler (a.top + -8) { x with stack := [.object e] } v c' m' →
      Vm.Arrives P turns (v.moved target c' m')) : Vm.Arrives P (turns + 46) (v.moved q c m) := by
  have under := caller.fits.operands
  have heap := caller.fits.heap
  have thread' := caller.fits.thread
  have top := caller.fits.top
  refine caller.runRegaining thread frame operands sp saved regained fun c₁ m₁ h₁ spares changed => ?_
  exact h₁.runThrow throws ((spares.regs _ (by decide)).trans held) roomy room
    (measured.agrees (changed.agrees (.inl (by omega)))) searched next

/-! ## Out of a service -/

/-- After a service that has posted an exception, the exception is forwarded. -/
theorem runResumePosted {result : Option Register} (h : Stands a b bcp p x v c m)
    (posted : m.Changed m' a.thread.toNat (a.thread.toNat + 8))
    (pending : load m'.bytes a.thread.toNat 8 = e) (some : e ≠ 0)
    (lay : Lays ⟨v.image.code, place⟩ ctx inStub K S (resumeGuest result) q q' ())
    (next : ∀ c' m', c.Spares c' [.scratch1] →
      m.Changed m' a.thread.toNat (a.thread.toNat + 40) → load m'.bytes a.thread.toNat 8 = e →
      Vm.Arrives P turns (v.moved ctx.forwardException c' m')) :
    Vm.Arrives P (turns + 11) (v.moved q c m') := by
  have placed := (Activation.Placed.of_stands h).changed posted
  have idle := (posted.agrees (s := a.thread.toNat + 48) (t := a.thread.toNat + 52) (by omega)).load
    (Nat.le_refl _) (Nat.le_refl (a.thread.toNat + 48 + 4))
  refine Vm.runResumePosted placed.thread (fun _ _ inside => placed.fits.threadField inside) pending
    some (by rw [idle]; exact h.idle.pop) lay fun c₁ m₁ spares changed => next c₁ m₁ spares ?_ ?_
  · exact (posted.mono (Nat.le_refl _) (by omega)).trans (changed.mono (by omega) (Nat.le_refl _))
  · exact ((changed.agrees (s := a.thread.toNat) (t := a.thread.toNat + 8) (by omega)).load
      (Nat.le_refl _) (Nat.le_refl _)).trans pending

/-- The forwarded exception comes to where the return address says, and waits no more. -/
theorem runTaking {handler : UInt64} (h : Stands a b bcp p x v c m)
    (posted : m.Changed m' a.thread.toNat (a.thread.toNat + 40))
    (pending : load m'.bytes a.thread.toNat 8 = e) (handles : v.image.Handles (c.reg .link) handler)
    (roomy : a.Roomy ctx.settings b.maxStack) (object : v.world.store.heap.isObject e = true)
    (lay : Lays ⟨v.image.code, place⟩ ctx inStub K S taking q q' ())
    (next : ∀ c' m', Stands a b bcp p x v c' m' → c'.reg .x0 = e →
      (∀ lo hi, hi ≤ a.thread.toNat ∨ p.toNat ≤ lo → m.Agrees m' lo hi) →
      Vm.Arrives P turns (v.moved handler c' m')) : Vm.Arrives P (turns + 24) (v.moved q c m') := by
  unfold taking at lay
  obtain ⟨i₁, lay⟩ := lay.emit_bind
  obtain ⟨i₂, lay⟩ := lay.emit_bind
  obtain ⟨⟨⟩, r, asked, lay⟩ := lay.split
  obtain ⟨i₃, lay⟩ := lay.emit_bind
  obtain ⟨i₄, lay⟩ := lay.emit_bind
  obtain ⟨i₅, lay⟩ := lay.emit_bind
  obtain ⟨i₆, lay⟩ := lay.emit_bind
  obtain ⟨i₇, lay⟩ := lay.emit_bind
  obtain ⟨⟨⟩, r', verified, lay⟩ := lay.split
  obtain ⟨i₈, rfl⟩ := lay.emit
  have eight : (8 : UInt64).toNat = 8 := rfl
  have room := h.fits.thread
  have under := h.fits.operands
  have heap := h.fits.heap
  have bounds := h.bounds
  refine .mov i₁ (.mov i₂ ?_)
  generalize hc : Cpu.setReg _ .x19 _ = c₁
  have spares₁ : c.Spares c₁ [.x0, .x1, .x3, .x19, .scratch1, .link] := hc ▸
    ((Cpu.Spares.refl c _).setReg (by simp) _).setReg (by simp) _
  have x1 : c₁.reg .x1 = c.reg .link := by
    rw [← hc, Cpu.reg_setReg_ne _ _ (by decide), Cpu.reg_setReg_self _ _ (by decide)]
  refine Vm.runAskHandler (by decide) (x1 ▸ handles) asked fun c₂ spares₂ answer => ?_
  refine .mov i₃ (.mov i₄ (.mov i₅ ?_))
  generalize hc₃ : Cpu.setReg _ .x19 _ = c₃
  have spares₃ : c.Spares c₃ [.x0, .x1, .x3, .x19, .scratch1, .link] := hc₃ ▸
    (((spares₁.trans (spares₂.mono (by decide))).setReg (by simp) _).setReg (by simp) _).setReg
      (by simp) _
  have x19 : c₃.reg .x19 = handler := by
    rw [← hc₃, Cpu.reg_setReg_self _ _ (by decide), Cpu.reg_setReg_ne _ _ (by decide),
      Cpu.reg_setReg_ne _ _ (by decide), answer]
  have placed := ((Activation.Placed.of_stands h).changed posted).spares spares₃ (by decide)
    (by decide)
  refine placed.runThreadLoad i₆ (by decide) pending ?_
  have spares₄ := spares₃.setReg (r := .x0) (by simp) e
  refine (placed.spares ((Cpu.Spares.refl c₃ [.x0]).setReg (by simp) e) (by decide)
    (by decide)).runThreadStore i₇ (by decide) ?_
  obtain ⟨pendingAt, pendingOk⟩ := placed.fits.threadField (k := ThreadBlock.pendingException)
    (w := 8) (by decide)
  change _ = a.thread.toNat + 0 at pendingAt
  have changed := posted.put (a := a.thread + ThreadBlock.pendingException) (w := 8)
    (v := (c₃.setReg .x0 e).reg .zero) (by omega) (by omega)
  have cleared : load (m'.put (a.thread + ThreadBlock.pendingException) 8
      ((c₃.setReg .x0 e).reg .zero)).bytes a.thread.toNat 8 = 0 := by
    rw [Cpu.reg_zero, show a.thread.toNat = (a.thread + ThreadBlock.pendingException).toNat from
      pendingAt.symm]
    exact Guarded.load_put pendingOk
  change Vm.Arrives P _ (v.moved _ _ (m'.put (a.thread + ThreadBlock.pendingException) 8 _))
  generalize Guarded.put _ _ 8 _ = m₁ at changed cleared ⊢
  have h₁ : Stands a b bcp p x v (c₃.setReg .x0 e) m₁ := by
    refine (h.apart changed (.inl (by omega)) ⟨cleared, ?_⟩).withRegisters
      (h.registers.congr fun r fixed => spares₄.regs r fun mem => ?_)
    · rw [(changed.agrees (s := a.thread.toNat + 48) (t := a.thread.toNat + 52) (by omega)).load
        (Nat.le_refl _) (Nat.le_refl _)]
      exact h.idle.pop
    · simp only [List.mem_cons, List.not_mem_nil, or_false] at mem
      rcases mem with rfl | rfl | rfl | rfl | rfl | rfl <;> cases fixed
  have held : (c₃.setReg .x0 e).reg .x0 = e := Cpu.reg_setReg_self _ _ (by decide)
  refine h₁.verifyReference verified roomy (.inr (by rwa [held])) fun c₅ m₂ h₂ same _ wrote =>
    .branchTo i₈ ?_
  rw [same _ (by decide), Cpu.reg_setReg_ne _ _ (by decide), x19]
  refine next c₅ m₂ h₂ ((same _ (by decide)).trans held) fun lo hi out => ?_
  exact (changed.agrees (by omega)).trans (wrote.agrees (by omega))

/-- Forwarding, with the check that an exception is pending or without it. -/
theorem runForward {handler : UInt64} (h : Stands a b bcp p x v c m)
    (posted : m.Changed m' a.thread.toNat (a.thread.toNat + 40))
    (pending : load m'.bytes a.thread.toNat 8 = e) (some : e ≠ 0)
    (handles : v.image.Handles (c.reg .link) handler)
    (roomy : a.Roomy ctx.settings b.maxStack) (object : v.world.store.heap.isObject e = true)
    (lay : Lays ⟨v.image.code, place⟩ ctx inStub K S Stubs.forward q q' ())
    (next : ∀ c' m', Stands a b bcp p x v c' m' → c'.reg .x0 = e →
      (∀ lo hi, hi ≤ a.thread.toNat ∨ p.toNat ≤ lo → m.Agrees m' lo hi) →
      Vm.Arrives P turns (v.moved handler c' m')) : Vm.Arrives P (turns + 26) (v.moved q c m') := by
  unfold Stubs.forward at lay
  replace lay := lay.settings_bind
  by_cases checks : ctx.settings.debugChecks = true
  · replace lay := lay.ite_pos checks
    obtain ⟨ok, lay⟩ := lay.newLabel_bind
    obtain ⟨i₁, lay⟩ := lay.emit_bind
    obtain ⟨i₂, lay⟩ := lay.emitTo_bind
    obtain ⟨⟨⟩, r, -, lay⟩ := lay.split
    obtain ⟨here, lay⟩ := lay.bind_bind
    rw [here] at i₂
    have placed := (Activation.Placed.of_stands h).changed posted
    refine placed.runThreadLoad i₁ (by decide) pending (.branchNonzero i₂ (fun _ => ?_) fun zero => ?_)
    · exact (h.setReg .scratch1 e rfl).runTaking posted pending
        (by rwa [Cpu.reg_setReg_ne _ _ (by decide)]) roomy object lay next
    · rw [Cpu.reg_setReg_self _ _ (by decide)] at zero
      exact absurd zero some
  · exact (h.runTaking posted pending handles roomy object (lay.ite_neg checks) next).le (by omega)

/-! ## Overflows -/

/-- The code for an overflow of the stack gives up the operands, and the bytecode with them: the
    runtime is called with the bytecode that the frame kept. -/
theorem runOverflowing (h : Stands a b bcp p x v c m)
    (saved : load m.bytes (a.frame.toNat - 56) 8 = bcp')
    (lay : Lays ⟨v.image.code, place⟩ ctx inStub K S overflowing q q' ())
    (next : ∀ c' m' K' r r', Lays ⟨v.image.code, place⟩ ctx inStub K' S (resumeGuest none) r r' () →
      Stands a b bcp' a.top { x with stack := [] } v c' m' → c'.reg .link = r →
      c'.reg .x0 = a.thread → load m'.bytes (a.frame.toNat - 56) 8 = bcp' →
      Vm.Arrives P turns (v.moved Service.throwStackOverflow.address c' m')) :
    Vm.Arrives P (turns + 11) (v.moved q c m) := by
  unfold overflowing at lay
  obtain ⟨i₁, lay⟩ := Lays.emit_bind
    (i := .load .bytecode (.base .frame Frame.bytecode) .double false) lay
  obtain ⟨⟨⟩, r₁, emptied, lay⟩ := lay.split
  obtain ⟨⟨⟩, r₂, called, -⟩ := lay.split
  refine h.runFrameLoad i₁ (by decide) (by decide) saved ?_
  refine (h.setBytecode bcp').runEmptyOperands emptied fun m₁ h₁ _ => ?_
  refine h₁.runCallVm called (by decide) fun c₂ m₂ K' r resumed h₂ link x0 _ _ saved₂ _ _ _ _ => ?_
  exact next c₂ m₂ K' r r₂ resumed h₂ link x0 saved₂

end Stands

/-! ## The code of an image -/

/-- An exception from a callee regains the registers first, one of the activation comes to the search
    at once, and one that nothing handles to the code that leaves the activation. -/
theorem Lays.handling {F : Finished} {ctx : CodeContext} {K S : List CodeLabel}
    {p q rethrow throwException removeActivation : UInt64}
    (lay : Lays F ctx true K S ExceptionEntries.handling p q
      (rethrow, throwException, removeActivation)) :
    Lays F ctx true K S regaining rethrow throwException () ∧
      Lays F ctx true K S searching throwException removeActivation () ∧
        Lays F ctx true K S unwinding removeActivation q () := by
  rw [handling_eq] at lay
  replace lay := lay.pc_bind
  obtain ⟨⟨⟩, r₁, regained, lay⟩ := lay.split
  replace lay := lay.pc_bind
  obtain ⟨⟨⟩, r₂, searched, lay⟩ := lay.split
  replace lay := lay.pc_bind
  obtain ⟨⟨⟩, r₃, unwound, lay⟩ := lay.split
  obtain ⟨rfl, same⟩ := lay.ended
  cases same
  exact ⟨regained, searched, unwound⟩

namespace Image

/-- Where the code for exceptions lies. -/
structure Raises (i : Image) (s : Settings) : Prop where
  forward : ∃ place q, Lays ⟨i.code, place⟩ { settings := s } true [] [] Stubs.forward
    i.stubs.forwardException q ()
  handling : ∃ place ctx K S, ctx.settings = s ∧
    Lays ⟨i.code, place⟩ ctx true K S regaining i.exceptions.rethrow i.exceptions.throwException () ∧
    Lays ⟨i.code, place⟩ ctx true K S searching i.exceptions.throwException
      i.exceptions.removeActivation ()
  overflow : ∃ place ctx K S q, ctx.forwardException = i.stubs.forwardException ∧
    Lays ⟨i.code, place⟩ ctx true K S overflowing i.exceptions.throwStackOverflow q ()

variable {s : Settings} {i i' : Image}

theorem raises_of_generate (h : generate s = .ok i) (pages : s.shadowPages.toNat < 2 ^ 54) :
    i.Raises s := by
  obtain ⟨parts, laid⟩ := laid_of_generate h pages
  obtain ⟨place, p, q, stubs⟩ := laid.stubs
  obtain ⟨place', l, lay⟩ := laid.interpreter
  obtain ⟨p', q', exceptions⟩ := (placed_of_lays lay).exceptions
  unfold Stubs.all at stubs
  obtain ⟨⟨⟩, _, -, stubs⟩ := stubs.stub_bind
  obtain ⟨⟨⟩, _, forward, stubs⟩ := stubs.stub_bind
  obtain ⟨_, _, -, stubs⟩ := stubs.split
  obtain ⟨_, _, -, stubs⟩ := stubs.split
  obtain ⟨_, _, -, stubs⟩ := stubs.split
  obtain ⟨_, _, -, stubs⟩ := stubs.split
  obtain ⟨-, ended⟩ := stubs.ended
  unfold ExceptionEntries.all at exceptions
  obtain ⟨_, _, -, lay⟩ := exceptions.split
  obtain ⟨⟨_, rethrow, throwException, removeActivation⟩, _, handling, lay⟩ := lay.split
  obtain ⟨⟨throwStackOverflow, _⟩, _, overflow, lay⟩ := lay.split
  obtain ⟨_, _, -, lay⟩ := lay.split
  obtain ⟨_, _, -, lay⟩ := lay.split
  obtain ⟨_, _, -, lay⟩ := lay.split
  obtain ⟨_, _, -, lay⟩ := lay.split
  obtain ⟨-, same⟩ := lay.ended
  rw [← laid.exceptions] at same
  obtain ⟨regained, searched, -⟩ := handling.stub.2.handling
  obtain ⟨rfl, overflow⟩ := overflow.stub
  exact {
    forward := by
      rw [ended]
      exact ⟨place, _, forward⟩
    handling := by
      rw [same]
      exact ⟨place', _, _, _, rfl, regained, searched⟩
    overflow := by
      rw [same]
      exact ⟨place', _, _, _, _, rfl, overflow⟩ }

theorem Raises.keeps (h : i.Raises s) (keeps : i.Keeps i') : i'.Raises s := by
  obtain ⟨⟨_, _, forward⟩, ⟨_, _, _, _, settings, regained, searched⟩, _, _, _, _, _, forwards,
    overflow⟩ := h
  exact {
    forward := by
      rw [keeps.stubs]
      exact ⟨_, _, forward.mono rfl keeps.fetches⟩
    handling := by
      rw [keeps.exceptions]
      exact ⟨_, _, _, _, settings, regained.mono rfl keeps.fetches,
        searched.mono rfl keeps.fetches⟩
    overflow := by
      rw [keeps.stubs, keeps.exceptions]
      exact ⟨_, _, _, _, _, forwards, overflow.mono rfl keeps.fetches⟩ }

end Image

namespace Stands

variable {P : Vm → Prop} {turns : Nat} {v : Vm} {q q' : UInt64} {c c₀ : Cpu} {m m' : Guarded}
  {a : Activation} {b : Program} {bcp bcp' p e pointer : UInt64} {x : Contents}
  {place : CodeLabel → UInt64} {ctx : CodeContext} {inStub : Bool} {K S : List CodeLabel}
  {id : MethodId} {thrown : ClassId} {s : Settings}

/-- An exception that is thrown by the code of a bytecode is looked up at this bytecode. -/
theorem runThrown (h : Stands a b bcp p x v c m) (raises : v.image.Raises s)
    (throws : a.Throws b x.heap id e thrown) (held : c.reg .x0 = e)
    (roomy : a.Roomy s b.maxStack) (room : 0 < b.maxStack) (measured : a.Measured 4 pointer m)
    (next : ∀ target handler c' m', a.GoesOn b v.image id bcp thrown target handler →
      Stands { a with sp := pointer } b handler (a.top + -8) { x with stack := [.object e] } v c' m' →
      Vm.Arrives P turns (v.moved target c' m')) :
    Vm.Arrives P (turns + 41) (v.moved v.image.exceptions.throwException c m) := by
  obtain ⟨_, _, _, _, rfl, -, searched⟩ := raises.handling
  exact h.runThrow throws held roomy room measured searched next

/-- An exception that leaves a callee is looked up at the bytecode that the frame of the caller
    keeps. -/
theorem runRethrown (caller : Stands a b bcp p x v c₀ m) (raises : v.image.Raises s)
    (throws : a.Throws b x.heap id e thrown) (thread : c.reg .thread = a.thread)
    (frame : c.reg .frame = a.frame) (operands : c.reg .operands = p) (sp : c.reg .sp = a.sp)
    (held : c.reg .x0 = e) (saved : load m.bytes (a.frame.toNat - 56) 8 = bcp')
    (roomy : a.Roomy s b.maxStack) (room : 0 < b.maxStack) (measured : a.Measured 4 pointer m)
    (next : ∀ target handler c' m', a.GoesOn b v.image id bcp' thrown target handler →
      Stands { a with sp := pointer } b handler (a.top + -8) { x with stack := [.object e] } v c' m' →
      Vm.Arrives P turns (v.moved target c' m')) :
    Vm.Arrives P (turns + 46) (v.moved v.image.exceptions.rethrow c m) := by
  obtain ⟨_, _, _, _, rfl, regained, searched⟩ := raises.handling
  exact caller.runRethrow throws thread frame operands sp held saved roomy room measured regained
    searched next

/-- An exception that a service has posted is looked up at the bytecode that the frame keeps. -/
theorem runPosted {result : Option Register} (h : Stands a b bcp p x v c m)
    (raises : v.image.Raises s) (throws : a.Throws b x.heap id e thrown)
    (changed : m.Changed m' a.thread.toNat (a.thread.toNat + 8))
    (pending : load m'.bytes a.thread.toNat 8 = e)
    (interpreted : v.image.contains (c.reg .link) = true)
    (saved : load m.bytes (a.frame.toNat - 56) 8 = bcp')
    (roomy : a.Roomy s b.maxStack) (room : 0 < b.maxStack) (measured : a.Measured 4 pointer m)
    (forwards : ctx.forwardException = v.image.stubs.forwardException)
    (lay : Lays ⟨v.image.code, place⟩ ctx inStub K S (resumeGuest result) q q' ())
    (next : ∀ target handler c' m', a.GoesOn b v.image id bcp' thrown target handler →
      Stands { a with sp := pointer } b handler (a.top + -8) { x with stack := [.object e] } v c' m' →
      Vm.Arrives P turns (v.moved target c' m')) : Vm.Arrives P (turns + 83) (v.moved q c m') := by
  obtain ⟨_, _, forward⟩ := raises.forward
  obtain ⟨body, object⟩ := throws.object
  have above := h.heap.above e _ object
  have records := h.fits.records
  have heap := h.fits.heap
  have low := h.fits.thread
  have under := h.fits.operands
  have top := h.fits.top
  have depth := h.top
  have some : e ≠ 0 := by
    rintro rfl
    change a.heap.toNat ≤ 0 at above
    omega
  refine h.runResumePosted changed pending some lay fun c₁ m₁ spares changed₁ pending₁ => ?_
  rw [forwards]
  have link : c₁.reg .link = c.reg .link := spares.regs _ (by decide)
  have handles : v.image.Handles (c₁.reg .link) v.image.exceptions.rethrow := by
    rw [link]
    simp only [Image.Handles, interpreted, ↓reduceIte]
  have h₁ : Stands a b bcp p x v c₁ m := h.withRegisters <|
    h.registers.congr fun r fixed => spares.regs r fun mem => by
      rw [List.mem_singleton] at mem
      subst mem
      cases fixed
  refine h₁.runForward changed₁ pending₁ some handles roomy (h.inhabits.objects e _ object) forward
    fun c₂ m₂ h₂ held agrees => ?_
  have r := h₂.registers
  refine h₂.runRethrown raises throws r.thread r.frame r.operands r.sp held ?_ roomy room
    (measured.agrees (agrees 0x1000 a.heap.toNat (.inl (by omega)))) next
  rw [(agrees (a.frame.toNat - 56) (a.frame.toNat - 48) (.inr (by omega))).load (Nat.le_refl _)
    (by omega)]
  exact saved

/-- The runtime posts an overflow of the stack with the bytecode that the frame kept, which need not be
    the one that has overflowed. -/
theorem runOverflowed (h : Stands a b bcp p x v c m) (raises : v.image.Raises s)
    (saved : load m.bytes (a.frame.toNat - 56) 8 = bcp')
    (next : ∀ place ctx K S r r' c' m', ctx.forwardException = v.image.stubs.forwardException →
      Lays ⟨v.image.code, place⟩ ctx true K S (resumeGuest none) r r' () →
      Stands a b bcp' a.top { x with stack := [] } v c' m' → c'.reg .link = r →
      c'.reg .x0 = a.thread → load m'.bytes (a.frame.toNat - 56) 8 = bcp' →
      Vm.Arrives P turns (v.moved Service.throwStackOverflow.address c' m')) :
    Vm.Arrives P (turns + 11) (v.moved v.image.exceptions.throwStackOverflow c m) := by
  obtain ⟨place, ctx, K, S, _, forwards, lay⟩ := raises.overflow
  exact h.runOverflowing saved lay fun c' m' K' r r' resumed =>
    next place ctx K' S r r' c' m' forwards resumed

end Stands
end TemplateVm
