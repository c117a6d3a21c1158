import TemplateVm.Proofs.Activation.Clearing
import TemplateVm.Proofs.Calls.Serving

set_option autoImplicit false
set_option synthInstance.maxSize 100000

/-!
# The frame of a bytecoded method on its way in

The frame is built below the cleared locals. It is `Framed` from then on: the registers are those of
the activation, and the words that code on the way in relies on are in their slots. What is called
meanwhile writes to the block of the thread, to records and to what is locked, none of which is on
the stack of the thread. The records are needed only until the method is locked.
-/
namespace TemplateVm

open Memory (Guarded load byteAt)

namespace GuestCall

/-- Where the operands begin: below the fixed part of the frame, and below the record of the monitor
    once the method is locked. -/
def top (a : GuestCall) (locked : Bool) : UInt64 :=
  a.frame + if locked then Frame.firstMonitor else Frame.monitorTop

/-- The stack pointer leaves room for the operands and four words more. -/
def sp (a : GuestCall) (locked : Bool) : UInt64 :=
  let below := (a.frame + Frame.monitorTop - (a.maxStack.toUInt64 + 4) * 8) &&& (-16)
  if locked then below - Frame.monitorSize else below

/-- The addresses of records, apart from the count of invocations. -/
def OfRecords (a : GuestCall) (map : MemoryMap) (j : Nat) : Prop :=
  j < map.thread.toNat ∧ (j < a.method.toNat + 12 ∨ a.method.toNat + 16 ≤ j)

/-- The method has its frame below the locals, which are as they were in the memory `m₀`. Until it
    is locked, the records are, too. -/
structure Framed (a : GuestCall) (locked : Bool) (m₀ : Guarded) (v : Vm) (c : Cpu) (m : Guarded) :
    Prop where
  fenced : (v.withMemory m).Fenced
  method : a.method.toNat + 48 ≤ v.map.thread.toNat
  placed : v.map.stackLimit.toNat + 80 ≤ a.frame.toNat
  base : a.frame.toNat + 32 ≤ a.base.toNat
  threadRegister : c.reg .thread = v.map.thread
  methodRegister : c.reg .method = a.method
  frameRegister : c.reg .frame = a.frame
  operands : c.reg .operands = a.top locked
  locals : c.reg .locals = a.locals
  bytecode : c.reg .bytecode = a.constMethod + ConstMethodRecord.code
  dispatch : c.reg .dispatch = Place.activeTable
  sp : c.reg .sp = a.sp locked
  localsSlot : load m.bytes (a.frame.toNat - 48) 8 = a.locals
  bytecodeSlot : load m.bytes (a.frame.toNat - 56) 8 = a.constMethod + ConstMethodRecord.code
  topSlot : load m.bytes (a.frame.toNat - 64) 8 = a.top locked
  object : locked = true → load m.bytes (a.frame.toNat - 72) 8 = a.object
  above : ∀ j, a.base.toNat ≤ j → byteAt m.bytes j = byteAt m₀.bytes j
  records : locked = false → ∀ j, a.OfRecords v.map j → byteAt m.bytes j = byteAt m₀.bytes j

variable {a : GuestCall} {v w : Vm} {c c' : Cpu} {m m' m₀ : Guarded} {p q q' k t : UInt64}
  {place : CodeLabel → UInt64} {ctx : CodeContext} {K S : List CodeLabel} {Q : Nat → Vm → Prop}
  {turns : Nat} {locked : Bool} {A : Nat → Prop}

end GuestCall

namespace Vm

variable {v w : Vm} {m m' : Guarded}

theorem Fenced.alike (h : (v.withMemory m).Fenced) (alike : m.Alike m') :
    (v.withMemory m').Fenced where
  mapped := h.mapped.alike alike
  zoned := h.zoned
  size := alike.size.trans h.size
  guards := by
    obtain ⟨n, guards⟩ := h.guards
    exact ⟨n, alike.guards.trans guards⟩

/-- A service that is no leaf goes on at the link register where it does not fail. -/
theorem Counts.served {k : UInt64} {j : Instruction UInt64} {Q : Nat → Vm → Prop} {turns : Nat}
    {c : Cpu} {A : Nat → Prop} {s : Service} (leaf : s.isLeaf = false)
    (mapped : (v.withMemory m).Mapped) (beside : ThreadBlock.Beside ⟨v.map.thread⟩ A)
    (work : ∀ steps watched,
      Preserves (Serving A ((v.moved s.address c m).counted steps watched)) (perform s))
    (next : ∀ u : Vm, u.map = v.map → u.image = v.image → u.Mapped →
      m.Spared A u.world.store.mem →
      Counts k j Q turns (u.moved (c.reg .link) c u.world.store.mem)) :
    Counts k j Q (turns + 1) (v.moved s.address c m) := by
  refine .service fun steps watched u ran => ?_
  have here : ((v.moved s.address c m).counted steps watched).Mapped := mapped.congr rfl rfl
  have served := here.serve_serving leaf beside (work steps watched)
  rw [ran] at served
  have served : ((v.moved s.address c m).counted steps watched).Served A u := served
  refine ⟨u.moved (c.reg .link) c u.world.store.mem, ?_, ⟨fun quiet => ?_, ?_, ?_⟩, served.image,
    next u served.map served.image served.mapped served.bytes⟩
  · have processor : u.processor =
        { u.processor with cpu := { c with pc := c.reg .link }, steps, watched } := by
      rw [served.processor]
      rfl
    exact congrArg (fun p => ({ u with processor := p } : Vm)) processor
  · unfold Quiet at *
    change (u.safepoints.armed || !u.safepoints.requested) = true
    rw [served.safepoints]
    exact quiet
  · exact (congrArg Processor.maxSteps served.processor :)
  · exact congrArg (·.settings.stopAt) served.image

end Vm

namespace GuestCall

variable {a : GuestCall} {v w : Vm} {c c' : Cpu} {m m' m₀ : Guarded} {p q q' k t : UInt64}
  {place : CodeLabel → UInt64} {ctx : CodeContext} {K S : List CodeLabel} {Q : Nat → Vm → Prop}
  {turns : Nat} {locked : Bool} {A : Nat → Prop}

namespace Framed

theorem low (h : a.Framed locked m₀ v c m) :
    v.map.thread.toNat + 0x1000 + 80 ≤ a.frame.toNat := by
  have thread := h.fenced.zoned.ordered.thread
  have page : Place.threadSize.toNat = 0x1000 := rfl
  change v.map.thread.toNat + Place.threadSize.toNat ≤ v.map.stackLimit.toNat at thread
  have placed := h.placed
  omega

/-! ## What stays -/

theorem congr (h : a.Framed locked m₀ v c m) (same : ∀ r ∈ [Register.thread, .method, .frame,
    .operands, .locals, .bytecode, .dispatch, .sp], c'.reg r = c.reg r) :
    a.Framed locked m₀ v c' m :=
  { h with
    threadRegister := (same _ (by simp)).trans h.threadRegister
    methodRegister := (same _ (by simp)).trans h.methodRegister
    frameRegister := (same _ (by simp)).trans h.frameRegister
    operands := (same _ (by simp)).trans h.operands
    locals := (same _ (by simp)).trans h.locals
    bytecode := (same _ (by simp)).trans h.bytecode
    dispatch := (same _ (by simp)).trans h.dispatch
    sp := (same _ (by simp)).trans h.sp }

theorem setReg (h : a.Framed locked m₀ v c m) (r : Register) (n : UInt64)
    (free : r ∉ [Register.thread, .method, .frame, .operands, .locals, .bytecode, .dispatch, .sp]) :
    a.Framed locked m₀ v (c.setReg r n) m :=
  h.congr fun _ hs => c.reg_setReg_ne n fun e => free (e ▸ hs)

theorem setFlags (h : a.Framed locked m₀ v c m) (f : Flags) :
    a.Framed locked m₀ v (c.setFlags f) m := h.congr fun _ _ => Cpu.reg_setFlags ..

/-- Bytes of the frame and above stay, and those of records while they are needed. -/
theorem spared (h : a.Framed locked m₀ v c m) (map : w.map = v.map)
    (fenced : (w.withMemory m').Fenced) (spared : m.Spared A m')
    (frame : ∀ j, a.frame.toNat - 72 ≤ j → A j)
    (records : locked = false → ∀ j, a.OfRecords v.map j → A j) : a.Framed locked m₀ w c m' := by
  have low := h.low
  have base := h.base
  have kept {j : Nat} (place : a.frame.toNat - 72 ≤ j) {n : UInt64}
      (was : load m.bytes j 8 = n) : load m'.bytes j 8 = n :=
    (Memory.load_congr fun i first _ => spared.bytes i (frame i (by omega))).trans was
  exact {
    fenced
    method := map ▸ h.method
    placed := map ▸ h.placed
    base
    threadRegister := map ▸ h.threadRegister
    methodRegister := h.methodRegister
    frameRegister := h.frameRegister
    operands := h.operands
    locals := h.locals
    bytecode := h.bytecode
    dispatch := h.dispatch
    sp := h.sp
    localsSlot := kept (by omega) h.localsSlot
    bytecodeSlot := kept (by omega) h.bytecodeSlot
    topSlot := kept (by omega) h.topSlot
    object := fun yes => kept (by omega) (h.object yes)
    above := fun j hj => (spared.bytes j (frame j (by omega))).trans (h.above j hj)
    records := fun no j hj => by
      rw [map] at hj
      exact (spared.bytes j (records no j hj)).trans (h.records no j hj) }

/-- The block of the thread and the count of invocations may be written. -/
theorem changed {lo hi : Nat} (h : a.Framed locked m₀ v c m) (changed : m.Changed m' lo hi)
    (away : v.map.thread.toNat ≤ lo ∧ hi ≤ v.map.thread.toNat + 0x1000 ∨
      a.method.toNat + 12 ≤ lo ∧ hi ≤ a.method.toNat + 16) : a.Framed locked m₀ v c m' := by
  have low := h.low
  have method := h.method
  refine h.spared (A := fun j => j < lo ∨ hi ≤ j) rfl
    (h.fenced.alike ⟨changed.size, changed.guards⟩)
    (changed.spared fun j hj => hj) (fun j hj => by omega) fun _ j hj => ?_
  unfold OfRecords at hj
  omega

/-! ## Instructions -/

/-- A register is stored in the thread's block. -/
theorem countsThreadStore (h : a.Framed locked m₀ v c m) {r : Register} {f : UInt64} {n : Width}
    (i : v.image.code.Fetches q (.store r (.base .thread f) n))
    (inside : f.toNat + n.bytes.toNat ≤ 0x1000)
    (next : ∀ m', a.Framed locked m₀ v c m' →
      Vm.Counts k .clearing Q turns (v.moved (q + 4) c m')) :
    Vm.Counts k .clearing Q (turns + 1) (v.moved q c m) := by
  have low := h.low
  have limit := a.frame.toNat_lt
  have address : (v.map.thread + f).toNat = v.map.thread.toNat + f.toNat :=
    toNat_add_of_lt (by omega)
  refine .store i (by simp) fun _ => next _ (h.changed (Guarded.changed_put ..) (.inl ?_))
  rw [Cpu.target_base, h.threadRegister, address]
  omega

/-- A field of the thread's block is loaded. -/
theorem countsThreadLoad (h : a.Framed locked m₀ v c m) {r : Register} {f : UInt64} {n : Width}
    (i : v.image.code.Fetches q (.load r (.base .thread f) n false))
    (next : Vm.Counts k .clearing Q turns (v.moved (q + 4)
      (c.setReg r (load m.bytes (v.map.thread + f).toNat n.bytes.toNat)) m)) :
    Vm.Counts k .clearing Q (turns + 1) (v.moved q c m) :=
  .load i (by simp) fun _ => by
    rw [Cpu.target_base, h.threadRegister]
    exact next

/-- The words of the frame that hold the bytecode and the locals are loaded. -/
theorem countsRestore (h : a.Framed locked m₀ v c m)
    (i₁ : v.image.code.Fetches q (.load .bytecode (.base .frame Frame.bytecode) .double false))
    (i₂ : v.image.code.Fetches (q + 4) (.load .locals (.base .frame Frame.locals) .double false))
    (next : ∀ c', a.Framed locked m₀ v c' m →
      Vm.Counts k .clearing Q turns (v.moved (q + 4 + 4) c' m)) :
    Vm.Counts k .clearing Q (turns + 2) (v.moved q c m) := by
  have low := h.low
  have at₁ : (a.frame + Frame.bytecode).toNat = a.frame.toNat - 56 :=
    toNat_add_neg (k := 56) (by change 56 ≤ _; omega)
  have at₂ : (a.frame + Frame.locals).toNat = a.frame.toNat - 48 :=
    toNat_add_neg (k := 48) (by change 48 ≤ _; omega)
  have double : Width.double.bytes.toNat = 8 := rfl
  refine .load i₁ (by simp) fun _ => .load i₂ (by simp) fun _ => next _ ?_
  simp +decide only [Cpu.target_base, Cpu.rebase_base, Cpu.reg_setReg, ↓reduceIte, h.frameRegister,
    at₁, at₂, double, h.bytecodeSlot, h.localsSlot]
  refine h.congr fun r hr => ?_
  by_cases locals : r = .locals
  · rw [locals, Cpu.reg_setReg_self _ _ (by decide), h.locals]
  by_cases bytecode : r = .bytecode
  · rw [bytecode, Cpu.reg_setReg_ne _ _ (by decide), Cpu.reg_setReg_self _ _ (by decide),
      h.bytecode]
  · rw [Cpu.reg_setReg_ne _ _ locals, Cpu.reg_setReg_ne _ _ bytecode]

end Framed

/-! ## After a service -/

/-- The method is left: an exception is forwarded, or the frame is popped as asked. -/
inductive Left (forward pop : UInt64) (w : Vm) : Prop
  | raised (here : w.processor.cpu.pc = forward)
    (pending : load w.world.store.mem.bytes
      (w.map.thread + ThreadBlock.pendingException).toNat 8 ≠ 0)
  | popped (here : w.processor.cpu.pc = pop)
    (asked : load w.world.store.mem.bytes (w.map.thread + ThreadBlock.framePop).toNat 4 &&& 1 ≠ 0)

namespace Framed

section
variable {pop : UInt64} (exits : ∀ w, Left ctx.forwardException pop w → Q 0 w)
  (popped : ∀ l, ctx.popFrame = some l → place l = pop)
include exits

include popped in
/-- The frame is popped if that is asked for. -/
theorem countsHonourPop (h : a.Framed locked m₀ v c m)
    (lay : Lays ⟨v.image.code, place⟩ ctx true K S Emit.honourPop q q' ())
    (next : ∀ c', a.Framed locked m₀ v c' m → Vm.Counts k .clearing Q turns (v.moved q' c' m)) :
    Vm.Counts k .clearing Q (turns + 4) (v.moved q c m) := by
  unfold Emit.honourPop at lay
  replace lay := lay.read_bind
  cases pop : ctx.popFrame with
  | none =>
    simp only [pop] at lay
    obtain ⟨rfl, -⟩ := lay.ended
    exact (next c h).le (by omega)
  | some l =>
    simp only [pop] at lay
    have : Orderly.Reserved l ctx := ⟨pop⟩
    obtain ⟨none, lay⟩ := lay.newLabel_bind
    obtain ⟨i₁, lay⟩ := lay.emit_bind
    obtain ⟨i₂, lay⟩ := lay.emitTo_bind
    obtain ⟨i₃, lay⟩ := lay.emitTo_bind
    obtain ⟨i₄, lay⟩ := lay.emitTo_bind
    obtain ⟨here, rfl⟩ := lay.bind
    rw [here] at i₂ i₃
    have there := popped l pop
    have h₁ := h.setReg .scratch1 (load m.bytes (v.map.thread + ThreadBlock.framePop).toNat 4)
      (by decide)
    refine h.countsThreadLoad i₁ (.branchBitClear i₂ (by simp)
      (fun _ => (next _ h₁).le (Nat.le_add_right turns 2)) fun asked =>
        .branchBitSet i₃ (by simp) (fun _ => (next _ h₁).le (Nat.le_add_right turns 1))
          fun _ => .branch i₄ (by simp) ?_)
    rw [Cpu.reg_setReg_self _ _ (by decide)] at asked
    exact .here (exits _ (.popped there asked))

/-- An exception that is on its way is forwarded. -/
theorem countsForwardPending (h : a.Framed locked m₀ v c m)
    (lay : Lays ⟨v.image.code, place⟩ ctx true K S Emit.forwardPending q q' ())
    (next : ∀ c', a.Framed locked m₀ v c' m → Vm.Counts k .clearing Q turns (v.moved q' c' m)) :
    Vm.Counts k .clearing Q (turns + 4) (v.moved q c m) := by
  unfold Emit.forwardPending at lay
  obtain ⟨ok, lay⟩ := lay.newLabel_bind
  obtain ⟨i₁, lay⟩ := lay.emit_bind
  obtain ⟨i₂, lay⟩ := lay.emitTo_bind
  replace lay := lay.read_bind
  obtain ⟨i₃, lay⟩ := lay.emit_bind
  obtain ⟨i₄, lay⟩ := lay.emit_bind
  obtain ⟨here, rfl⟩ := lay.bind
  rw [here] at i₂
  refine h.countsThreadLoad i₁ (.branchZero i₂ (by simp)
    (fun _ => .le (next _ ?_) (Nat.le_add_right turns 2)) fun pending =>
    .movImm i₃ (by simp) (.branchTo i₄ (by simp) (.here (exits _ (.raised ?_ ?_)))))
  · exact h.setReg .scratch1 _ (by decide)
  · change Cpu.reg (Cpu.setReg _ .scratch1 _) .scratch1 = _
    rw [Cpu.reg_setReg_self _ _ (by decide)]
  · rw [Cpu.reg_setReg_self _ _ (by decide)] at pending
    exact pending

include popped in
/-- After a service the method goes on, unless it is left. -/
theorem countsResume (h : a.Framed locked m₀ v c m)
    (lay : Lays ⟨v.image.code, place⟩ ctx true K S (Emit.resumeGuest none) q q' ())
    (next : ∀ c' m', a.Framed locked m₀ v c' m' →
      Vm.Counts k .clearing Q turns (v.moved q' c' m')) :
    Vm.Counts k .clearing Q (turns + 13) (v.moved q c m) := by
  unfold Emit.resumeGuest at lay
  obtain ⟨⟨⟩, q₁, reset, lay⟩ := lay.split
  obtain ⟨⟨⟩, q₂, pop, lay⟩ := lay.split
  obtain ⟨⟨⟩, q₃, pending, lay⟩ := lay.split
  obtain ⟨⟨⟩, q₄, value, lay⟩ := lay.split
  obtain ⟨i₄, lay⟩ := Lays.emit_bind
    (i := .load .bytecode (.base .frame Frame.bytecode) .double false) lay
  obtain ⟨i₅, rfl⟩ := Lays.emit (i := .load .locals (.base .frame Frame.locals) .double false) lay
  obtain ⟨rfl, -⟩ := Lays.ended value
  unfold Emit.resetLastFrame at reset
  obtain ⟨i₁, reset⟩ := reset.emit_bind
  obtain ⟨i₂, reset⟩ := reset.emit_bind
  obtain ⟨i₃, rfl⟩ := reset.emit
  refine h.countsThreadStore i₁ (by decide) fun m₁ h₁ => ?_
  refine h₁.countsThreadStore i₂ (by decide) fun m₂ h₂ => ?_
  refine h₂.countsThreadStore i₃ (by decide) fun m₃ h₃ => ?_
  refine h₃.countsHonourPop exits popped pop fun c₁ h₄ => ?_
  refine h₄.countsForwardPending exits pending fun c₂ h₅ => ?_
  exact h₅.countsRestore i₄ i₅ fun c₃ h₆ => next c₃ m₃ h₆

end

/-! ## Calls of services -/

/-- The bytecode is in its slot already. -/
theorem countsSaveBytecode (h : a.Framed locked m₀ v c m)
    (i : v.image.code.Fetches q (.store .bytecode (.base .frame Frame.bytecode) .double))
    (next : ∀ m', a.Framed locked m₀ v c m' →
      Vm.Counts k .clearing Q turns (v.moved (q + 4) c m')) :
    Vm.Counts k .clearing Q (turns + 1) (v.moved q c m) := by
  have low := h.low
  have base := h.base
  have slot : (a.frame + Frame.bytecode).toNat = a.frame.toNat - 56 :=
    toNat_add_neg (k := 56) (by change 56 ≤ _; omega)
  have eight : (8 : UInt64).toNat = 8 := rfl
  refine .store i (by simp) fun ok => next _ ?_
  rw [Cpu.target_base, h.frameRegister, h.bytecode] at *
  have changed := Guarded.changed_put m (a.frame + Frame.bytecode) 8
    (a.constMethod + ConstMethodRecord.code)
  rw [slot] at changed
  have kept {j : Nat} {n : UInt64} (away : j + 8 ≤ a.frame.toNat - 56 ∨ a.frame.toNat - 48 ≤ j)
      (was : load m.bytes j 8 = n) :
      load (m.put (a.frame + Frame.bytecode) 8 (a.constMethod + ConstMethodRecord.code)).bytes j 8 =
        n := ((changed.agrees (by omega)).load (Nat.le_refl j) (Nat.le_refl _)).trans was
  exact { h with
    fenced := h.fenced.alike ⟨changed.size, changed.guards⟩
    localsSlot := kept (by omega) h.localsSlot
    bytecodeSlot := by
      rw [← slot]
      exact Guarded.load_put ok
    topSlot := kept (by omega) h.topSlot
    object := fun yes => kept (by omega) (h.object yes)
    above := fun j hj => (changed.other j (by omega)).trans (h.above j hj)
    records := fun no j hj => (changed.other j (by
      have := hj.1
      omega)).trans (h.records no j hj) }

omit v c m q in
/-- At most one argument is passed, in the register that takes it. -/
theorem countsPass {v : Vm} {c : Cpu} {m : Guarded} {q q' : UInt64} {arg : Option Register}
    (lay : Lays ⟨v.image.code, place⟩ ctx true K S
      (Emit.passArguments (Register.arguments.drop 1) arg.toList) q q' ())
    (next : ∀ c', (∀ r, r ≠ .x1 → c'.reg r = c.reg r) →
      (∀ b, arg = some b → c'.reg .x1 = c.reg b) →
        Vm.Counts k .clearing Q turns (v.moved q' c' m)) :
    Vm.Counts k .clearing Q (turns + 1) (v.moved q c m) := by
  unfold Emit.passArguments at lay
  cases arg with
  | none =>
    obtain ⟨rfl, -⟩ := lay.ended
    exact (next c (fun _ _ => rfl) nofun).le (by omega)
  | some b =>
    have each : ∀ x : Register × Register,
        Orderly ctx true K S S 1 (if x.1 = x.2 then pure () else Emit.mov x.1 x.2) := fun x =>
      Orderly.upto inferInstance (by decide)
    rw [show (Register.arguments.drop 1).zip (some b).toList = [(Register.x1, b)] from rfl] at lay
    obtain ⟨r, first, rest⟩ := Lays.forM_cons (o := each) lay
    obtain ⟨rfl, -⟩ := rest.ended
    by_cases same : Register.x1 = b
    · obtain ⟨rfl, -⟩ := (first.ite_pos same).ended
      exact (next c (fun _ _ => rfl) fun b' hb => by rw [← Option.some.inj hb, same]).le (by omega)
    · obtain ⟨i, rfl⟩ := (first.ite_neg same).emit
      refine .mov i (by simp) (next _ (fun r hr => Cpu.reg_setReg_ne _ _ hr) fun b' hb => ?_)
      rw [← Option.some.inj hb]
      exact c.reg_setReg_self (c.reg b) (r := .x1) (by decide)

/-- A service is called with the frame shown to it, and the method goes on or is left. -/
theorem countsCallVm (h : a.Framed locked m₀ v c m) {s : Service} (arg : Option Register)
    {pop : UInt64} (exits : ∀ w, Left ctx.forwardException pop w → Q 0 w)
    (popped : ∀ l, ctx.popFrame = some l → place l = pop)
    (lay : Lays ⟨v.image.code, place⟩ ctx true K S (Emit.callVm none s arg.toList) q q' ())
    (leaf : s.isLeaf = false) (beside : ThreadBlock.Beside ⟨v.map.thread⟩ A)
    (frame : ∀ j, a.frame.toNat - 72 ≤ j → A j)
    (records : locked = false → ∀ j, a.OfRecords v.map j → A j)
    (work : ∀ c₁ m₁ steps watched, a.Framed locked m₀ v c₁ m₁ →
      (∀ b, arg = some b → c₁.reg .x1 = c.reg b) →
      Preserves (Vm.Serving A ((v.moved s.address c₁ m₁).counted steps watched)) (Vm.perform s))
    (next : ∀ (v' : Vm) c' m', v'.image = v.image → v'.map = v.map → a.Framed locked m₀ v' c' m' →
      Vm.Counts k .clearing Q turns (v'.moved q' c' m')) :
    Vm.Counts k .clearing Q (turns + 23) (v.moved q c m) := by
  unfold Emit.callVm Emit.saveBytecode at lay
  obtain ⟨i₁, lay⟩ := lay.emit_bind
  obtain ⟨⟨⟩, q₁, pass, lay⟩ := lay.split
  obtain ⟨i₂, lay⟩ := lay.emit_bind
  obtain ⟨resume, lay⟩ := lay.newLabel_bind
  obtain ⟨⟨⟩, q₂, setup, lay⟩ := lay.split
  obtain ⟨i₇, lay⟩ := lay.emit_bind
  obtain ⟨i₈, lay⟩ := lay.emit_bind
  obtain ⟨-, lay⟩ := lay.bind_bind
  unfold Emit.setLastFrame at setup
  obtain ⟨i₃, setup⟩ := setup.emit_bind
  obtain ⟨i₄, setup⟩ := setup.emit_bind
  obtain ⟨i₅, setup⟩ := setup.emitTo_bind
  obtain ⟨i₆, rfl⟩ := setup.emit
  refine h.countsSaveBytecode i₁ fun m₁ h₁ => countsPass pass fun c₂ same passed => ?_
  have h₂ : a.Framed locked m₀ v c₂ m₁ := h₁.congr fun r hr => same r (by revert r; decide)
  refine .mov i₂ (by simp) ?_
  have h₃ := h₂.setReg .x0 (c₂.reg .thread) (by decide)
  refine h₃.countsThreadStore i₃ (by decide) fun m₂ h₄ => ?_
  refine h₄.countsThreadStore i₄ (by decide) fun m₃ h₅ => .adr i₅ (by simp) ?_
  refine (h₅.setReg .scratch1 _ (by decide)).countsThreadStore i₆ (by decide) fun m₄ h₆ => ?_
  refine .movImm i₇ (by simp) (.callTo i₈ (by simp) ?_)
  rw [Cpu.reg_setReg_self _ _ (by decide)]
  have h₇ := (h₆.setReg .scratch1 s.address (by decide)).setReg .link
    (q₁ + 4 + 4 + 4 + 4 + 4 + 4 + 4) (by decide)
  refine .served leaf h₇.fenced.mapped beside (fun steps watched => work _ _ _ _ h₇ fun b hb => ?_)
    fun u map image mapped spared => ?_
  · refine Eq.trans ?_ (passed b hb)
    simp +decide only [Cpu.reg_setReg, ↓reduceIte]
  · have fenced : (u.withMemory u.world.store.mem).Fenced := by
      have before := h₇.fenced
      refine ⟨mapped.congr rfl rfl, ?_, ?_, ?_⟩
      · change u.map.Zoned
        rw [map]
        exact before.zoned
      · change _ = u.map.size.toNat
        rw [map]
        exact spared.alike.size.trans before.size
      · obtain ⟨n, guards⟩ := before.guards
        refine ⟨n, ?_⟩
        change u.map.Guards n _
        rw [map]
        exact spared.alike.guards.trans guards
    have h₈ := h₇.spared map fenced spared frame records
    rw [Cpu.reg_setReg_self _ _ (by decide)]
    refine h₈.countsResume exits popped (image.symm ▸ lay) fun c' m' h' =>
      next u c' m' image map h'

end Framed

/-! ## The fixed part of the frame -/

theorem Recorded.congr {map : MemoryMap} (h : a.Recorded map m)
    (same : ∀ j, a.OfRecords map j → byteAt m'.bytes j = byteAt m.bytes j) : a.Recorded map m' := by
  have method := h.method
  have constMethod := h.constMethod
  have apart := h.apart
  have kept {j n : Nat} (below : j + n ≤ map.thread.toNat)
      (away : j + n ≤ a.method.toNat + 12 ∨ a.method.toNat + 16 ≤ j) :
      load m'.bytes j n = load m.bytes j n :=
    Memory.load_congr fun i first last => same i ⟨by omega, by omega⟩
  exact { h with
    code := (kept (by omega) (by omega)).trans h.code
    parameterWords := (kept (by omega) (by omega)).trans h.parameterWords
    maxLocals := (kept (by omega) (by omega)).trans h.maxLocals
    maxStack := (kept (by omega) (by omega)).trans h.maxStack }

/-- The frame lies well above the block of the thread, even if it does not fit above the red
    zone. -/
theorem Called.frame_low (h : a.Called v c m) (cleared : a.Cleared v.map m m₀) :
    (a.frame + 32).toNat = a.frame.toNat + 32 ∧ a.frame.toNat + 32 ≤ a.base.toNat ∧
      v.map.stackLimit.toNat + 80 ≤ a.frame.toNat ∧
      v.map.thread.toNat + 0x1000 ≤ v.map.stackLimit.toNat := by
  obtain ⟨-, red⟩ := h.fenced.red
  have thread := h.fenced.zoned.ordered.thread
  have low := cleared.low
  have page : Place.threadSize.toNat = 0x1000 := rfl
  change v.map.stackLimit.toNat + 1024 ≤ v.map.redEnd.toNat at red
  change v.map.thread.toNat + Place.threadSize.toNat ≤ v.map.stackLimit.toNat at thread
  have round := toNat_and_neg_sixteen a.base
  have down : a.frame.toNat = (a.base &&& -16).toNat - 32 :=
    UInt64.toNat_sub_of_le _ _ (UInt64.le_iff_toNat_le.mpr (by
      change 32 ≤ _
      omega))
  have limit := a.base.toNat_lt
  have up : (a.frame + 32).toNat = a.frame.toNat + 32 := toNat_add_of_lt (by
    change _ + 32 < _
    omega)
  omega

/-- A pair of words is pushed for the frame. -/
theorem countsPush (low : 64 ≤ a.frame.toNat) (up : (a.frame + 32).toNat = a.frame.toNat + 32)
    {r₁ r₂ : Register} {n l : UInt64}
    (i : v.image.code.Fetches q (.storePair r₁ r₂ (.pre .sp (-16))))
    (sp : c.reg .sp = a.frame + l) (next_ : l + -16 = n)
    (place : a.frame.toNat - 64 ≤ (a.frame + n).toNat ∧ (a.frame + n).toNat ≤ a.frame.toNat + 16)
    (changed : m₀.Changed m (a.frame.toNat - 64) (a.frame.toNat + 32))
    (next : ∀ m', m.Changed m' (a.frame + n).toNat ((a.frame + n).toNat + 16) →
      m₀.Changed m' (a.frame.toNat - 64) (a.frame.toNat + 32) →
      load m'.bytes (a.frame + n).toNat 8 = c.reg r₁ →
      load m'.bytes ((a.frame + n).toNat + 8) 8 = c.reg r₂ →
      Vm.Counts k .clearing Q turns (v.moved (q + 4) (c.setReg .sp (a.frame + n)) m')) :
    Vm.Counts k .clearing Q (turns + 1) (v.moved q c m) := by
  have eight : (8 : UInt64).toNat = 8 := rfl
  have limit := (a.frame + 32).toNat_lt
  have second : (a.frame + n + 8).toNat = (a.frame + n).toNat + 8 := toNat_add_of_lt (by omega)
  have target : c.target (.pre .sp (-16)) = a.frame + n := by
    rw [Cpu.target_pre, sp, UInt64.add_assoc, next_]
  refine .storePair i (by simp) fun ok₁ ok₂ => ?_
  rw [target] at ok₁ ok₂ ⊢
  rw [Cpu.rebase_pre, sp, UInt64.add_assoc, next_]
  have pushed : m.Changed ((m.put (a.frame + n) 8 (c.reg r₁)).put (a.frame + n + 8) 8 (c.reg r₂))
      (a.frame + n).toNat ((a.frame + n).toNat + 16) :=
    ((Guarded.Changed.refl m _ _).put (Nat.le_refl _) (by omega)).put (by omega) (by omega)
  refine next _ pushed (changed.trans (pushed.mono (by omega) (by omega))) ?_ ?_
  · rw [Guarded.load_put_of_disjoint (by omega)]
    exact Guarded.load_put ok₁
  · rw [← second]
    exact Guarded.load_put ok₂.put

/-- The records are still as they were when only words of the frame have been written. -/
theorem Called.recorded_changed (h : a.Called v c' m₀) (cleared : a.Cleared v.map m₀ m)
    (changed : m.Changed m' (a.frame.toNat - 64) (a.frame.toNat + 32)) :
    a.Recorded v.map m' := by
  obtain ⟨-, base, high, zone⟩ := h.frame_low cleared
  refine h.recorded.congr fun j hj => ?_
  have below := hj.1
  exact (changed.other j (by omega)).trans (cleared.changed.other j (by omega))

/-- The frame has been pushed down to `n` bytes below its pointer. -/
structure Building (a : GuestCall) (v : Vm) (m₀ : Guarded) (n : UInt64) (c : Cpu) (m : Guarded) :
    Prop where
  changed : m₀.Changed m (a.frame.toNat - 64) (a.frame.toNat + 32)
  sp : c.reg .sp = a.frame + -n
  thread : c.reg .thread = v.map.thread
  method : c.reg .method = a.method
  frame : c.reg .frame = a.frame
  locals : c.reg .locals = a.locals
  dispatch : c.reg .dispatch = Place.activeTable

namespace Building

variable {n l : UInt64}

theorem setReg (h : a.Building v m₀ n c m) (r : Register) (x : UInt64)
    (free : r ∉ [Register.sp, .thread, .method, .frame, .locals, .dispatch]) :
    a.Building v m₀ n (c.setReg r x) m := by
  have same : ∀ s ∈ [Register.sp, .thread, .method, .frame, .locals, .dispatch],
      (c.setReg r x).reg s = c.reg s := fun s hs => c.reg_setReg_ne x fun e => free (e ▸ hs)
  exact {
    changed := h.changed
    sp := (same _ (by simp)).trans h.sp
    thread := (same _ (by simp)).trans h.thread
    method := (same _ (by simp)).trans h.method
    frame := (same _ (by simp)).trans h.frame
    locals := (same _ (by simp)).trans h.locals
    dispatch := (same _ (by simp)).trans h.dispatch }

theorem pushed (h : a.Building v m₀ l c m)
    (changed : m₀.Changed m' (a.frame.toNat - 64) (a.frame.toNat + 32)) :
    a.Building v m₀ n (c.setReg .sp (a.frame + -n)) m' where
  changed
  sp := Cpu.reg_setReg_self _ _ (by decide)
  thread := (Cpu.reg_setReg_ne _ _ (by decide)).trans h.thread
  method := (Cpu.reg_setReg_ne _ _ (by decide)).trans h.method
  frame := (Cpu.reg_setReg_ne _ _ (by decide)).trans h.frame
  locals := (Cpu.reg_setReg_ne _ _ (by decide)).trans h.locals
  dispatch := (Cpu.reg_setReg_ne _ _ (by decide)).trans h.dispatch

/-- The next pair of words is pushed. -/
theorem countsPush (h : a.Building v m₀ l c m) (low : 64 ≤ a.frame.toNat)
    (up : (a.frame + 32).toNat = a.frame.toNat + 32) {r₁ r₂ : Register}
    (i : v.image.code.Fetches q (.storePair r₁ r₂ (.pre .sp (-16)))) (down : -l + -16 = -n)
    (few : n.toNat ≤ 64)
    (next : ∀ m', m.Changed m' (a.frame.toNat - n.toNat) (a.frame.toNat - n.toNat + 16) →
      load m'.bytes (a.frame.toNat - n.toNat) 8 = c.reg r₁ →
      load m'.bytes (a.frame.toNat - n.toNat + 8) 8 = c.reg r₂ →
      a.Building v m₀ n (c.setReg .sp (a.frame + -n)) m' →
      Vm.Counts k .clearing Q turns (v.moved (q + 4) (c.setReg .sp (a.frame + -n)) m')) :
    Vm.Counts k .clearing Q (turns + 1) (v.moved q c m) := by
  have below : (a.frame + -n).toNat = a.frame.toNat - n.toNat := toNat_add_neg (by omega)
  refine GuestCall.countsPush low up i h.sp down (by omega) h.changed
    fun m' pushed changed first second => ?_
  rw [below] at pushed first second
  exact next m' pushed first second (h.pushed changed)

/-- A register that the frame does not depend on is loaded. -/
theorem countsLoad (h : a.Building v m₀ n c m) {r base : Register} {d : UInt64} {w : Width}
    (i : v.image.code.Fetches q (.load r (.base base d) w false))
    (free : r ∉ [Register.zero, .sp, .thread, .method, .frame, .locals, .dispatch])
    (next : ∀ c', a.Building v m₀ n c' m →
      c'.reg r = load m.bytes (c.reg base + d).toNat w.bytes.toNat →
      (∀ s, s ≠ r → c'.reg s = c.reg s) → Vm.Counts k .clearing Q turns (v.moved (q + 4) c' m)) :
    Vm.Counts k .clearing Q (turns + 1) (v.moved q c m) := by
  have zero : r ≠ .zero := List.ne_of_not_mem_cons free
  exact .load i (by simp) fun _ => next _ (h.setReg r _ (List.not_mem_of_not_mem_cons free))
    (Cpu.reg_setReg_self _ _ zero) fun s other => Cpu.reg_setReg_ne _ _ other

/-- The record of the bytecode is loaded. -/
theorem countsLoadCode (h : a.Building v m₀ n c m) {r : Register}
    (recorded : a.Recorded v.map m)
    (i : v.image.code.Fetches q (.load r (.base .method MethodRecord.constMethod) .double false))
    (free : r ∉ [Register.zero, .sp, .thread, .method, .frame, .locals, .dispatch])
    (next : ∀ c', a.Building v m₀ n c' m → c'.reg r = a.constMethod →
      (∀ s, s ≠ r → c'.reg s = c.reg s) → Vm.Counts k .clearing Q turns (v.moved (q + 4) c' m)) :
    Vm.Counts k .clearing Q (turns + 1) (v.moved q c m) := by
  have here : a.method + MethodRecord.constMethod = a.method := UInt64.add_zero _
  refine h.countsLoad i free fun c' h' value => next c' h' ?_
  rw [value, h.method, here]
  exact recorded.code

/-- The operands and the method are pushed, then the locals with the cache, and the bytecode. -/
theorem countsPushWords (h : a.Building v m₀ 0 c m) (low : 64 ≤ a.frame.toNat)
    (up : (a.frame + 32).toNat = a.frame.toNat + 32)
    (recorded : ∀ m', m₀.Changed m' (a.frame.toNat - 64) (a.frame.toNat + 32) →
      a.Recorded v.map m')
    (i₁ : v.image.code.Fetches q (.storePair .zero .operands (.pre .sp (-16))))
    (i₂ : v.image.code.Fetches (q + 4) (.storePair .zero .method (.pre .sp (-16))))
    (i₃ : v.image.code.Fetches (q + 4 + 4)
      (.load .cache (.base .method MethodRecord.constMethod) .double false))
    (i₄ : v.image.code.Fetches (q + 4 + 4 + 4)
      (.load .cache (.base .cache ConstMethodRecord.constants) .double false))
    (i₅ : v.image.code.Fetches (q + 4 + 4 + 4 + 4)
      (.load .cache (.base .cache PoolRecord.cache) .double false))
    (i₆ : v.image.code.Fetches (q + 4 + 4 + 4 + 4 + 4)
      (.storePair .locals .cache (.pre .sp (-16))))
    (i₇ : v.image.code.Fetches (q + 4 + 4 + 4 + 4 + 4 + 4)
      (.load .bytecode (.base .method MethodRecord.constMethod) .double false))
    (i₈ : v.image.code.Fetches (q + 4 + 4 + 4 + 4 + 4 + 4 + 4)
      (.binary .add .bytecode .bytecode (.imm ConstMethodRecord.code)))
    (i₉ : v.image.code.Fetches (q + 4 + 4 + 4 + 4 + 4 + 4 + 4 + 4)
      (.storePair .zero .bytecode (.pre .sp (-16))))
    (next : ∀ c' m', a.Building v m₀ 64 c' m' →
      c'.reg .bytecode = a.constMethod + ConstMethodRecord.code →
      load m'.bytes (a.frame.toNat - 48) 8 = a.locals →
      load m'.bytes (a.frame.toNat - 56) 8 = a.constMethod + ConstMethodRecord.code →
      Vm.Counts k .clearing Q turns (v.moved (q + 4 + 4 + 4 + 4 + 4 + 4 + 4 + 4 + 4) c' m')) :
    Vm.Counts k .clearing Q (turns + 9) (v.moved q c m) := by
  refine h.countsPush low up i₁ (n := 16) (by decide) (by decide) fun m₁ _ _ _ h₁ => ?_
  refine h₁.countsPush low up i₂ (n := 32) (by decide) (by decide) fun m₂ _ _ _ h₂ => ?_
  refine h₂.countsLoad i₃ (by decide) fun c₃ h₃ _ _ => ?_
  refine h₃.countsLoad i₄ (by decide) fun c₄ h₄ _ _ => ?_
  refine h₄.countsLoad i₅ (by decide) fun c₅ h₅ _ _ => ?_
  refine h₅.countsPush low up i₆ (n := 48) (by decide) (by decide) fun m₆ _ locals₆ _ h₆ => ?_
  refine h₆.countsLoadCode (recorded m₆ h₆.changed) i₇ (by decide) fun c₇ h₇ code₇ _ => ?_
  refine .binary i₈ (by simp) ?_
  rw [show Binary.apply (c₇.reg .bytecode) (c₇.operand (.imm ConstMethodRecord.code)) .add =
    a.constMethod + ConstMethodRecord.code from congrArg (· + ConstMethodRecord.code) code₇]
  replace h₇ := h₇.setReg .bytecode (a.constMethod + ConstMethodRecord.code) (by decide)
  refine h₇.countsPush low up i₉ (n := 64) (by decide) (by decide)
    fun m₉ changed₉ _ bytecode₉ h₉ => next _ m₉ h₉ ?_ ?_ ?_
  · rw [Cpu.reg_setReg_ne _ _ (by decide), Cpu.reg_setReg_self _ _ (by decide)]
  · have kept := changed₉.agrees (s := a.frame.toNat - 48) (t := a.frame.toNat - 40)
      (.inr (by change _ - 64 + 16 ≤ _; omega))
    exact (kept.load (Nat.le_refl _) (by omega)).trans (locals₆.trans h₅.locals)
  · have place : a.frame.toNat - 56 = a.frame.toNat - (64 : UInt64).toNat + 8 := by
      change _ = _ - 64 + 8
      omega
    rw [place, bytecode₉, Cpu.reg_setReg_self _ _ (by decide)]

/-- The operands begin where the words end, and the stack pointer leaves room for them. -/
theorem countsPlaceOperands (h : a.Building v m₀ 64 c m) (recorded : a.Recorded v.map m)
    (i₁ : v.image.code.Fetches q (.mov .operands .sp))
    (i₂ : v.image.code.Fetches (q + 4)
      (.load .scratch1 (.base .method MethodRecord.constMethod) .double false))
    (i₃ : v.image.code.Fetches (q + 4 + 4)
      (.load .scratch1 (.base .scratch1 ConstMethodRecord.maxStack) .half false))
    (i₄ : v.image.code.Fetches (q + 4 + 4 + 4) (.binary .add .scratch1 .scratch1 (.imm 4)))
    (i₅ : v.image.code.Fetches (q + 4 + 4 + 4 + 4)
      (.binary .sub .scratch1 .sp (.shifted .scratch1 3)))
    (i₆ : v.image.code.Fetches (q + 4 + 4 + 4 + 4 + 4) (.binary .and .sp .scratch1 (.imm (-16))))
    (next : ∀ c', (∀ s, s ≠ .sp → s ≠ .operands → s ≠ .scratch1 → c'.reg s = c.reg s) →
      c'.reg .operands = a.top false → c'.reg .sp = a.sp false →
      Vm.Counts k .clearing Q turns (v.moved (q + 4 + 4 + 4 + 4 + 4 + 4) c' m)) :
    Vm.Counts k .clearing Q (turns + 6) (v.moved q c m) := by
  have placed := recorded.constMethod
  have limit := v.map.thread.toNat_lt
  have at₁ : (a.constMethod + ConstMethodRecord.maxStack).toNat = a.constMethod.toNat + 12 :=
    toNat_add_of_lt (by change _ + 12 < _; omega)
  refine .mov i₁ (by simp) ?_
  rw [h.sp]
  replace h := h.setReg .operands (a.frame + -64) (by decide)
  refine h.countsLoadCode recorded i₂ (by decide) fun c₂ h₂ code₂ same₂ => ?_
  refine h₂.countsLoad i₃ (by decide) fun c₃ h₃ depth₃ same₃ => ?_
  rw [code₂, at₁] at depth₃
  have depth : c₃.reg .scratch1 = a.maxStack.toUInt64 := depth₃.trans recorded.maxStack
  have below : (a.frame + -64 - (a.maxStack.toUInt64 + 4) <<< (3 : UInt64)) &&& (-16) =
      a.sp false :=
    congrArg (fun n => (a.frame + -64 - n) &&& (-16)) (shiftLeft_three (a.maxStack.toUInt64 + 4))
  refine .binary i₄ (by simp) (.binary i₅ (by simp) (.binary i₆ (by simp)
    (next _ (fun s sp operands scratch => ?_) ?_ ?_)))
  · rw [Cpu.reg_setReg_ne _ _ sp, Cpu.reg_setReg_ne _ _ scratch, Cpu.reg_setReg_ne _ _ scratch,
      same₃ s scratch, same₂ s scratch, Cpu.reg_setReg_ne _ _ operands]
  · rw [Cpu.reg_setReg_ne _ _ (by decide), Cpu.reg_setReg_ne _ _ (by decide),
      Cpu.reg_setReg_ne _ _ (by decide), same₃ _ (by decide), same₂ _ (by decide),
      Cpu.reg_setReg_self _ _ (by decide)]
    rfl
  · simp +decide only [Cpu.operand, Cpu.reg_setReg, ↓reduceIte, depth, h₃.sp]
    exact below

end Building

/-- Where the frame begins, the sender's stack pointer, its frame and the return address are
    pushed. -/
theorem countsBegin (low : 64 ≤ a.frame.toNat) (up : (a.frame + 32).toNat = a.frame.toNat + 32)
    (i₁ : v.image.code.Fetches q (.store .sender (.pre .sp (-16)) .double))
    (i₂ : v.image.code.Fetches (q + 4) (.storePair .frame .link (.pre .sp (-16))))
    (i₃ : v.image.code.Fetches (q + 4 + 4) (.mov .frame .sp))
    (thread : c.reg .thread = v.map.thread) (method : c.reg .method = a.method)
    (locals : c.reg .locals = a.locals) (dispatch : c.reg .dispatch = Place.activeTable)
    (sp : c.reg .sp = a.frame + 32)
    (next : ∀ c' m', a.Building v m 0 c' m' →
      Vm.Counts k .clearing Q turns (v.moved (q + 4 + 4 + 4) c' m')) :
    Vm.Counts k .clearing Q (turns + 3) (v.moved q c m) := by
  have limit := (a.frame + 32).toNat_lt
  have eight : (8 : UInt64).toNat = 8 := rfl
  have at₁ : (a.frame + 16).toNat = a.frame.toNat + 16 := toNat_add_of_lt (by
    change _ + 16 < _
    omega)
  have at₂ : a.frame + 0 = a.frame := UInt64.add_zero _
  have sent : c.target (.pre .sp (-16)) = a.frame + 16 := by
    rw [Cpu.target_pre, sp, UInt64.add_assoc]
    rfl
  refine .store i₁ (by simp) fun _ => ?_
  rw [sent, Cpu.rebase_pre, sp, UInt64.add_assoc]
  change Vm.Counts k .clearing Q _ (v.moved (q + 4) (c.setReg .sp (a.frame + 16)) _)
  have changed : m.Changed (m.put (a.frame + 16) 8 (c.reg .sender)) (a.frame.toNat - 64)
      (a.frame.toNat + 32) := (Guarded.Changed.refl m _ _).put (by omega) (by omega)
  refine countsPush low up i₂ (Cpu.reg_setReg_self _ _ (by decide)) (n := 0) rfl
    (by rw [at₂]; omega) changed fun m₂ _ changed₂ _ _ => .mov i₃ (by simp) (next _ m₂ ?_)
  rw [Cpu.reg_setReg_self _ _ (by decide), at₂, Cpu.setReg_setReg]
  have same (s : Register) (sp : s ≠ .sp) (frame : s ≠ .frame) :
      ((c.setReg .sp a.frame).setReg .frame a.frame).reg s = c.reg s :=
    (Cpu.reg_setReg_ne _ _ frame).trans (Cpu.reg_setReg_ne _ _ sp)
  exact {
    changed := changed₂
    sp := by
      rw [Cpu.reg_setReg_ne _ _ (by decide), Cpu.reg_setReg_self _ _ (by decide)]
      exact at₂.symm
    thread := (same _ (by decide) (by decide)).trans thread
    method := (same _ (by decide) (by decide)).trans method
    frame := Cpu.reg_setReg_self _ _ (by decide)
    locals := (same _ (by decide) (by decide)).trans locals
    dispatch := (same _ (by decide) (by decide)).trans dispatch }

/-- The frame is built below the locals. -/
theorem Called.countsBuildFrame (h : a.Called v c' m₀) (cleared : a.Cleared v.map m₀ m)
    (lay : Lays ⟨v.image.code, place⟩ ctx true K S (Emit.buildFrame .sender false) q q' ())
    (thread : c.reg .thread = v.map.thread) (method : c.reg .method = a.method)
    (locals : c.reg .locals = a.locals) (dispatch : c.reg .dispatch = Place.activeTable)
    (sp : c.reg .sp = a.base &&& (-16))
    (next : ∀ c' m', a.Framed false m v c' m' → Vm.Counts k .clearing Q turns (v.moved q' c' m')) :
    Vm.Counts k .clearing Q (turns + 19) (v.moved q c m) := by
  unfold Emit.buildFrame at lay
  replace lay := lay.comment_bind
  simp only [↓reduceIte, Bool.not_false, Bool.false_eq_true] at lay
  obtain ⟨i₁, lay⟩ := lay.emit_bind
  obtain ⟨i₂, lay⟩ := lay.emit_bind
  obtain ⟨i₃, lay⟩ := lay.emit_bind
  obtain ⟨i₄, lay⟩ := lay.emit_bind
  obtain ⟨i₅, lay⟩ := lay.emit_bind
  obtain ⟨i₆, lay⟩ := lay.emit_bind
  obtain ⟨i₇, lay⟩ := lay.emit_bind
  obtain ⟨i₈, lay⟩ := lay.emit_bind
  obtain ⟨i₉, lay⟩ := lay.emit_bind
  obtain ⟨i₁₀, lay⟩ := lay.emit_bind
  obtain ⟨i₁₁, lay⟩ := lay.emit_bind
  obtain ⟨i₁₂, lay⟩ := lay.emit_bind
  obtain ⟨i₁₃, lay⟩ := lay.emit_bind
  obtain ⟨i₁₄, lay⟩ := lay.emit_bind
  obtain ⟨i₁₅, lay⟩ := lay.emit_bind
  obtain ⟨i₁₆, lay⟩ := lay.emit_bind
  obtain ⟨i₁₇, lay⟩ := lay.emit_bind
  obtain ⟨i₁₈, lay⟩ := lay.emit_bind
  obtain ⟨i₁₉, rfl⟩ := lay.emit
  obtain ⟨up, base, high, zone⟩ := h.frame_low cleared
  have recorded {m' : Guarded} (changed : m.Changed m' (a.frame.toNat - 64) (a.frame.toNat + 32)) :
      a.Recorded v.map m' := h.recorded_changed cleared changed
  have start : c.reg .sp = a.frame + 32 := by
    rw [sp]
    unfold frame
    rw [UInt64.sub_add_cancel]
  refine countsBegin (by omega) up i₁ i₂ i₃ thread method locals dispatch start fun c₁ m₁ h₁ => ?_
  refine h₁.countsPushWords (by omega) up (fun _ => recorded) i₄ i₅ i₆ i₇ i₈ i₉ i₁₀ i₁₁ i₁₂
    fun c₂ m₂ h₂ bytecode localsSlot bytecodeSlot => ?_
  refine h₂.countsPlaceOperands (recorded h₂.changed) i₁₃ i₁₄ i₁₅ i₁₆ i₁₇ i₁₈
    fun c₃ same operands sp => .store i₁₉ (by simp) fun ok => ?_
  have frame : c₃.reg .frame = a.frame :=
    (same _ (by decide) (by decide) (by decide)).trans h₂.frame
  have at₆ : (a.frame + -64).toNat = a.frame.toNat - 64 := toNat_add_neg (by change 64 ≤ _; omega)
  have eight : (8 : UInt64).toNat = 8 := rfl
  rw [Cpu.target_base, frame] at ok ⊢
  rw [Cpu.rebase_base, operands]
  change m₂.Open (a.frame + -64) 8 at ok
  change Vm.Counts k .clearing Q _ (v.moved _ c₃ (m₂.put (a.frame + -64) 8 (a.top false)))
  have changed := h₂.changed.put (a := a.frame + -64) (w := 8) (v := a.top false)
    (by omega) (by omega)
  have slot {j : Nat} (low : a.frame.toNat - 56 ≤ j) :
      load (m₂.put (a.frame + -64) 8 (a.top false)).bytes j 8 = load m₂.bytes j 8 :=
    Guarded.load_put_of_disjoint (by omega)
  have fenced : (v.withMemory m).Fenced :=
    h.fenced.alike ⟨cleared.changed.size, cleared.changed.guards⟩
  exact next c₃ _ {
    fenced := fenced.alike ⟨changed.size, changed.guards⟩
    method := (recorded changed).method
    placed := high
    base
    threadRegister := (same _ (by decide) (by decide) (by decide)).trans h₂.thread
    methodRegister := (same _ (by decide) (by decide) (by decide)).trans h₂.method
    frameRegister := frame
    operands
    locals := (same _ (by decide) (by decide) (by decide)).trans h₂.locals
    bytecode := (same _ (by decide) (by decide) (by decide)).trans bytecode
    dispatch := (same _ (by decide) (by decide) (by decide)).trans h₂.dispatch
    sp
    localsSlot := (slot (by omega)).trans localsSlot
    bytecodeSlot := (slot (Nat.le_refl _)).trans bytecodeSlot
    topSlot := at₆ ▸ Guarded.load_put ok
    object := by simp
    above := fun j hj => changed.other j (by omega)
    records := fun _ j hj => changed.other j (by
      have := hj.1
      omega) }

end GuestCall
end TemplateVm
