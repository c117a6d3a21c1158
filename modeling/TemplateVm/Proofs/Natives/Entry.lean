import TemplateVm.Proofs.Activation.Banging
import TemplateVm.Proofs.Activation.Tracing
import TemplateVm.Proofs.Loading.Lookups
import TemplateVm.Proofs.Natives.HostCalls

set_option autoImplicit false
set_option synthInstance.maxSize 100000

/-!
# Entering a native method

The entry takes the arguments on the operand stack of the caller for the locals of the method and
builds the frame below them. The method is `Ready` then, and stays so while its invocation is
counted and the stack is touched.
-/
namespace TemplateVm

open Memory (Guarded load)
open Emit

/-- At most a number of invocations of the method has been reported. -/
def Hooks.Told (h : Hooks) (method : MemberRef) (h' : Hooks) : Prop :=
  h' = h ∨ ∃ count, h' = h.counterOverflow method count

/-- What the record of a method has for the number of its invocations after one more, if they are
    counted. -/
def Settings.countedUp (s : Settings) (n : UInt64) : UInt64 :=
  if s.countsInvocations then (n + 1).toUInt32.toUInt64 else n

/-- One more invocation is reported if they are counted and it comes to the number in the settings. -/
def Hooks.countedUp (h : Hooks) (s : Settings) (method : MemberRef) (n : UInt64) : Hooks :=
  if s.countsInvocations ∧ n + 1 = s.compileThreshold.toUInt64 then
    h.counterOverflow method s.compileThreshold
  else h

theorem Hooks.told_countedUp (h : Hooks) (s : Settings) (method : MemberRef) (n : UInt64) :
    h.Told method (h.countedUp s method n) := by
  unfold Hooks.countedUp
  split
  · exact .inr ⟨_, rfl⟩
  · exact .inl rfl

/-- The invocations of the method of the last frame are reported, and nothing else is done. -/
theorem Vm.counterOverflow_ok {v : Vm} {p count : UInt64} {c : Cpu} {m : Guarded} {f : Frame}
    {id : MethodId}
    (frame : ∀ steps watched, lastFrame ((v.moved p c m).counted steps watched) =
      .ok f ((v.moved p c m).counted steps watched))
    (method : ∀ steps watched, methodOf f ((v.moved p c m).counted steps watched) =
      .ok id ((v.moved p c m).counted steps watched))
    (ok : m.Open ((v.world.classes.method id).address + MethodRecord.invocationCounter) 4)
    (counter : load m.bytes ((v.world.classes.method id).address +
      MethodRecord.invocationCounter).toNat 4 = count) (steps : UInt64)
    (watched : List (UInt64 × UInt64)) :
    counterOverflow ((v.moved p c m).counted steps watched) = .ok ()
      (({ v with
        hooks := v.hooks.counterOverflow (v.world.classes.member id) count.toUInt32 } : Vm).moved p c m
          |>.counted steps watched) := by
  subst counter
  refine (bind_ok (frame steps watched)).trans <| (bind_ok (method steps watched)).trans <|
    (bind_ok (m := classes) rfl).trans <| (bind_ok (onMemory_ok ok.readA)).trans ?_
  rfl

namespace NativeCall

variable {a : NativeCall} {s : Settings} {id : MethodId} {m₀ m m' : Guarded} {v : Vm} {c c' : Cpu}

/-- A native method that needs no lock is entered with its arguments on the operand stack. There is
    room for its frame and at the page that the settings have touched. No exception is on its way,
    no frame is to be popped, and no debugger is to be told. -/
structure Entered (a : NativeCall) (s : Settings) (id : MethodId) (v : Vm) (c : Cpu) (m : Guarded) :
    Prop where
  thread : c.reg .thread = a.thread
  method : c.reg .method = a.method
  fits : a.Fits (v.world.classes.get (v.world.classes.method id).holder).address
    (words v.world.classes id) m
  recorded : a.Recorded v.world.classes id m
  plain : (v.world.classes.method id).access.isSynchronized = false
  arity : load m.bytes (a.constMethod.toNat + 8) 2 = (words v.world.classes id).toUInt64
  /-- The last argument is on top. -/
  arguments : (c.reg .operands).toNat + 8 * words v.world.classes id = a.locals.toNat + 8
  frame : a.frame.toNat + 32 = (c.reg .operands).toNat / 16 * 16
  room : s.stackBanging = true → m.Open (a.frame + -64 - s.shadowPages * s.pageSize) 8
  pending : load m.bytes a.thread.toNat 8 = 0
  pop : (load m.bytes (a.thread.toNat + 48) 4) &&& 1 = 0
  unwatched : load m.bytes (a.thread.toNat + 56) 4 = 0
  block : v.map.thread = a.thread
  known : v.world.classes.methodAt? a.method = some id

/-- The method has its frame, with no operands; the page that the settings have touched is there,
    and no debugger is to be told. What the record says about the function is what it said
    before. -/
structure Opened (a : NativeCall) (s : Settings) (id : MethodId) (m₀ : Guarded) (v : Vm) (c : Cpu)
    (m : Guarded) : Prop extends a.Ready id m₀ v c m where
  operands : c.reg .operands = a.frame + -64
  sp : c.reg .sp = a.frame + -64
  unwatched : load m.bytes (a.thread.toNat + 56) 4 = 0
  room : s.stackBanging = true → m.Open (a.frame + -64 - s.shadowPages * s.pageSize) 8
  record : m₀.Agrees m (a.method.toNat + 24) (a.method.toNat + 44)

/-! ## The frame -/

/-- The words that are pushed make the method ready. -/
theorem Entered.ready (h : a.Entered s id v c m) (registers : a.Registers c')
    (changed : m.Changed m' (a.frame.toNat - 64) (a.frame.toNat + 32))
    (method : load m'.bytes (a.frame.toNat - 24) 8 = a.method)
    (locals : load m'.bytes (a.frame.toNat - 48) 8 = a.locals) : a.Ready id m v c' m' := by
  have f := h.fits
  have pool := f.pool
  have constMethod := f.constMethod
  have holder := f.holder
  have record := f.method
  have thread := f.thread
  have below : m.Agrees m' 0 (a.frame.toNat - 64) := changed.agrees (.inl (Nat.le_refl _))
  have kept {j k : Nat} (hj : j + k ≤ a.frame.toNat - 64) : load m'.bytes j k = load m.bytes j k :=
    below.load (Nat.zero_le _) hj
  exact {
    registers
    fits := { f with clear := f.clear.changed changed, clearStack := f.clearStack.changed changed }
    recorded :=
      { flags := (kept (by omega)).trans h.recorded.flags
        constMethod := (kept (by omega)).trans h.recorded.constMethod
        constants := (kept (by omega)).trans h.recorded.constants
        holder := (kept (by omega)).trans h.recorded.holder
        mirror := (kept (by omega)).trans h.recorded.mirror }
    framed :=
      { pending := (kept (by omega)).trans h.pending
        pop := by rw [kept (by omega), h.pop]
        method
        locals }
    thread := h.block
    known := h.known
    parameters := changed.agrees (.inr (Nat.le_refl _)) }

section
variable {P : Vm → Prop} {turns : Nat} {q q' : UInt64} {place : CodeLabel → UInt64}
  {ctx : CodeContext} {inStub : Bool} {K S T : List CodeLabel}

/-- A field of a record is loaded, whatever has been pushed for the frame. -/
theorem Entered.runRecordLoad (h : a.Entered s id v c m)
    (changed : m.Changed m' (a.frame.toNat - 64) (a.frame.toNat + 32)) {b r : Register}
    {p k x : UInt64} {n : Width} (i : v.image.code.Fetches q (.load r (.base b k) n false))
    (base : c'.reg b = p) (low : 0x1000 ≤ p.toNat) (high : p.toNat + k.toNat ≤ a.method.toNat)
    (holds : load m.bytes (p.toNat + k.toNat) n.bytes.toNat = x)
    (next : Vm.Arrives P turns (v.moved (q + 4) (c'.setReg r x) m')) :
    Vm.Arrives P (turns + 1) (v.moved q c' m') := by
  have f := h.fits
  have method := f.method
  have thread := f.thread
  have width : n.bytes.toNat ≤ 8 := by cases n <;> decide
  have bound := a.method.toNat_lt
  have address : (p + k).toNat = p.toNat + k.toNat := toNat_add_of_lt (by omega)
  have same : load m'.bytes (p.toNat + k.toNat) n.bytes.toNat = x := by
    rw [← holds]
    exact (changed.agrees (s := 0) (t := a.frame.toNat - 64) (.inl (Nat.le_refl _))).load
      (Nat.zero_le _) (by omega)
  exact .loadAt base i address ((f.clear.changed changed).open (by omega) (by omega)) same next

/-- The first parameter is found above the others, and the stack pointer is aligned. -/
theorem Entered.runArguments (h : a.Entered s id v c m)
    (i₁ : v.image.code.Fetches q
      (.load .x2 (.base .method MethodRecord.constMethod) .double false))
    (i₂ : v.image.code.Fetches (q + 4)
      (.load .x2 (.base .x2 ConstMethodRecord.parameterWords) .half false))
    (i₃ : v.image.code.Fetches (q + 4 + 4) (.binary .add .locals .operands (Register.x2.lsl 3)))
    (i₄ : v.image.code.Fetches (q + 4 + 4 + 4) (.binary .sub .locals .locals (.imm 8)))
    (i₅ : v.image.code.Fetches (q + 4 + 4 + 4 + 4) (.binary .and .sp .operands (.imm (-16))))
    (next : ∀ c', c'.reg .thread = a.thread → c'.reg .method = a.method →
      c'.reg .locals = a.locals → c'.reg .sp = a.frame + 32 →
      Vm.Arrives P turns (v.moved (q + 4 + 4 + 4 + 4 + 4) c' m)) :
    Vm.Arrives P (turns + 5) (v.moved q c m) := by
  have f := h.fits
  have arguments := h.arguments
  have bound := f.locals
  have rounded := h.frame
  have refl := Guarded.Changed.refl m (a.frame.toNat - 64) (a.frame.toNat + 32)
  refine h.runRecordLoad refl i₁ (p := a.method) h.method (by have := f.constMethod; omega)
    (Nat.le_refl _) h.recorded.constMethod ?_
  refine h.runRecordLoad refl i₂ (Cpu.reg_setReg_self _ _ (by decide)) f.constMethod.1
    f.constMethod.2 h.arity (.binary i₃ ?_)
  have first : Binary.apply (c.reg .operands)
      ((words v.world.classes id).toUInt64 <<< (3 : UInt8).toUInt64) .add = a.locals + 8 := by
    have eight : (8 : UInt64).toNat = 8 := rfl
    have size : ((words v.world.classes id).toUInt64 <<< (3 : UInt8).toUInt64).toNat =
        8 * words v.world.classes id := toNat_shiftLeft (by decide) (by change 8 * _ < _; omega)
    have sum := toNat_add_of_lt (p := c.reg .operands) (k := _ <<< _) (by rw [size]; omega)
    refine UInt64.toNat_inj.mp (sum.trans ?_)
    rw [size, arguments, toNat_add_of_lt (by omega), eight]
  have aligned : Binary.apply (c.reg .operands) (-16) .and = a.frame + 32 := by
    have above : (32 : UInt64).toNat = 32 := rfl
    refine UInt64.toNat_inj.mp ((toNat_and_neg_sixteen _).trans ?_)
    rw [← rounded, toNat_add_of_lt (by have := f.parameters; omega), above]
  simp +decide only [Cpu.operand, Cpu.reg_setReg, ↓reduceIte, Cpu.setReg_setReg, first]
  refine .binary i₄ (.binary i₅ (next _ ?_ ?_ ?_ ?_))
  all_goals simp +decide only [Cpu.operand, Cpu.reg_setReg, ↓reduceIte, aligned]
  · exact h.thread
  · exact h.method
  · exact UInt64.add_sub_cancel ..

/-- A pair of words is pushed for the frame. -/
theorem Entered.runPush (h : a.Entered s id v c m) {r₁ r₂ : Register} {k n : UInt64}
    (i : v.image.code.Fetches q (.storePair r₁ r₂ (.pre .sp (-16))))
    (sp : c'.reg .sp = a.frame + k) (below : n + 16 = k)
    (changed : m.Changed m' (a.frame.toNat - 64) (a.frame.toNat + 32))
    (place : a.frame.toNat - 64 ≤ (a.frame + n).toNat ∧
      (a.frame + n).toNat ≤ a.frame.toNat + 16)
    (next : ∀ m₁, m'.Changed m₁ (a.frame + n).toNat ((a.frame + n).toNat + 16) →
      m.Changed m₁ (a.frame.toNat - 64) (a.frame.toNat + 32) →
      load m₁.bytes (a.frame + n).toNat 8 = c'.reg r₁ →
      load m₁.bytes ((a.frame + n).toNat + 8) 8 = c'.reg r₂ →
      Vm.Arrives P turns (v.moved (q + 4) (c'.setReg .sp (a.frame + n)) m₁)) :
    Vm.Arrives P (turns + 1) (v.moved q c' m') := by
  have parameters := h.fits.parameters
  have locals := h.fits.locals
  have thread := h.fits.thread
  refine .pushPair (n := a.frame + n) i ?_ (h.fits.clearStack.changed changed) (by omega) (by omega)
    (by omega) fun m₁ pushed first second => next m₁ pushed ?_ first second
  · rw [sp, UInt64.add_assoc, below]
  · exact changed.trans (pushed.mono place.1 (by omega))

/-- Six pairs of words are pushed. -/
theorem Entered.runBuildFrame (h : a.Entered s id v c m)
    (lay : Lays ⟨v.image.code, place⟩ ctx inStub K S (buildFrame .sender true) q q' ())
    (thread : c'.reg .thread = a.thread) (method : c'.reg .method = a.method)
    (locals : c'.reg .locals = a.locals) (sp : c'.reg .sp = a.frame + 32)
    (next : ∀ c' m', a.Ready id m v c' m' → c'.reg .operands = a.frame + -64 →
      c'.reg .sp = a.frame + -64 → m.Changed m' (a.frame.toNat - 64) (a.frame.toNat + 32) →
      Vm.Arrives P turns (v.moved q' c' m')) : Vm.Arrives P (turns + 13) (v.moved q c' m) := by
  unfold buildFrame at lay
  replace lay := lay.comment_bind
  simp only [↓reduceIte, Bool.not_true, Bool.false_eq_true] at lay
  obtain ⟨i₁, lay⟩ := lay.emit_bind
  obtain ⟨i₂, lay⟩ := lay.emit_bind
  obtain ⟨i₃, lay⟩ := lay.emit_bind
  obtain ⟨i₄, lay⟩ := lay.emit_bind
  obtain ⟨i₅, lay⟩ := lay.emit_bind
  obtain ⟨i₆, lay⟩ := lay.emit_bind
  obtain ⟨i₇, lay⟩ := lay.emit_bind
  obtain ⟨i₈, lay⟩ := lay.emit_bind
  obtain ⟨i₉, lay⟩ := lay.emit_bind
  obtain ⟨i₁₀, lay⟩ := lay.emit_bind
  obtain ⟨i₁₁, lay⟩ := lay.emit_bind
  obtain ⟨i₁₂, lay⟩ := lay.emit_bind
  obtain ⟨i₁₃, rfl⟩ := lay.emit
  have f := h.fits
  have above := f.thread
  have down (n : UInt64) (hn : n.toNat ≤ 64) : (a.frame + -n).toNat = a.frame.toNat - n.toNat :=
    toNat_add_neg (by omega)
  have at₁ : (a.frame + 16).toNat = a.frame.toNat + 16 :=
    toNat_add_of_lt (by have := f.parameters; have := f.locals; change _ + 16 < _; omega)
  have at₂ : a.frame + 0 = a.frame := UInt64.add_zero _
  have at₃ : (a.frame + -16).toNat = a.frame.toNat - 16 := down 16 (by decide)
  have at₄ : (a.frame + -32).toNat = a.frame.toNat - 32 := down 32 (by decide)
  have at₅ : (a.frame + -48).toNat = a.frame.toNat - 48 := down 48 (by decide)
  have at₆ : (a.frame + -64).toNat = a.frame.toNat - 64 := down 64 (by decide)
  have eight : (8 : UInt64).toNat = 8 := rfl
  have self (c : Cpu) (r : Register) (x : UInt64) (hr : r ≠ .zero) : (c.setReg r x).reg r = x :=
    Cpu.reg_setReg_self _ _ hr
  refine h.runPush i₁ sp (n := 16) rfl (.refl ..) (by omega) fun m₁ _ all₁ _ _ => ?_
  refine h.runPush i₂ (self _ _ _ (by decide)) (n := 0) rfl all₁ (by rw [at₂]; omega)
    fun m₂ _ all₂ _ _ => .mov i₃ ?_
  rw [self _ _ _ (by decide), at₂, Cpu.setReg_setReg]
  refine h.runPush i₄ (k := 0) ?_ (n := -16) rfl all₂ (by omega) fun m₃ _ all₃ _ _ => ?_
  · rw [Cpu.reg_setReg_ne _ _ (by decide), self _ _ _ (by decide), at₂]
  refine h.runPush i₅ (self _ _ _ (by decide)) (n := -32) rfl all₃ (by omega)
    fun m₄ _ all₄ _ method₄ => ?_
  rw [Cpu.setReg_setReg]
  refine h.runRecordLoad all₄ i₆ (p := a.method) ?_ ?_ (Nat.le_refl _) h.recorded.constMethod ?_
  · simpa +decide only [Cpu.reg_setReg, ↓reduceIte] using method
  · have := f.pool
    omega
  refine h.runRecordLoad all₄ i₇ (self _ _ _ (by decide)) f.constMethod.1 (Nat.le_of_add_right_le
    f.constMethod.2) h.recorded.constants ?_
  refine h.runRecordLoad all₄ i₈ (self _ _ _ (by decide)) f.pool.1 f.pool.2 rfl ?_
  refine h.runPush i₉ (k := -32) ?_ (n := -48) rfl all₄ (by omega)
    fun m₅ changed₅ all₅ locals₅ _ => .mov i₁₀ ?_
  · simp +decide only [Cpu.reg_setReg, ↓reduceIte]
  refine h.runPush i₁₁ (k := -48) ?_ (n := -64) rfl all₅ (by omega)
    fun m₆ changed₆ all₆ _ _ => .mov i₁₂ ?_
  · simp +decide only [Cpu.reg_setReg, ↓reduceIte]
  generalize last : Cpu.setReg _ Register.operands _ = c₆
  have registers : a.Registers c₆ := by
    rw [← last]
    constructor <;> simp +decide only [Cpu.reg_setReg, ↓reduceIte, thread, method, locals]
  have operands : c₆.reg .operands = a.frame + -64 := by
    rw [← last]
    simp +decide only [Cpu.reg_setReg, ↓reduceIte]
  have sp : c₆.reg .sp = a.frame + -64 := by
    rw [← last]
    simp +decide only [Cpu.reg_setReg, ↓reduceIte]
  have all₇ := all₆.trans ((Guarded.changed_put m₆ (a.frame + -64) 8 (c₆.reg .operands)).mono
    (s := a.frame.toNat - 64) (t := a.frame.toNat + 32) (by omega) (by omega))
  refine .storeAt registers.frame i₁₃ ?_ ?_
  · change m₆.Open (a.frame + -64) 8
    exact (f.clearStack.changed all₆).open (by omega) (by have := f.parameters; omega)
  have kept {j : Nat} (low : a.frame.toNat - 48 ≤ j) :
      load (m₆.put (a.frame + -64) 8 (c₆.reg .operands)).bytes j 8 = load m₅.bytes j 8 := by
    rw [Guarded.load_put_of_disjoint (by omega)]
    exact (changed₆.agrees (s := a.frame.toNat - 48) (t := j + 8) (by omega)).load low
      (Nat.le_refl _)
  refine next c₆ _ (h.ready registers all₇ ?_ ?_) operands sp all₇
  · have pushed : load m₄.bytes (a.frame.toNat - 24) 8 = a.method := by
      rw [← method, show a.frame.toNat - 24 = (a.frame + -32).toNat + 8 by omega, method₄]
      simp +decide only [Cpu.reg_setReg, ↓reduceIte]
    refine (kept (by omega)).trans (Eq.trans ?_ pushed)
    exact (changed₅.agrees (s := a.frame.toNat - 32) (t := a.frame.toNat) (by omega)).load
      (by omega) (by omega)
  · refine (kept (Nat.le_refl _)).trans ?_
    rw [← locals, show a.frame.toNat - 48 = (a.frame + -48).toNat by omega, locals₅]
    simp +decide only [Cpu.reg_setReg, ↓reduceIte]

/-! ## Reports -/

namespace Ready

/-- The runtime finds the frame that is shown to it. -/
theorem lastFrame (h : a.Ready id m₀ v c m) (sp : load m.bytes (a.thread.toNat + 16) 8 ≠ 0)
    (fp : load m.bytes (a.thread.toNat + 24) 8 = a.frame) (q steps : UInt64)
    (watched : List (UInt64 × UInt64)) : Vm.lastFrame ((v.moved q c m).counted steps watched) =
      .ok ⟨a.frame⟩ ((v.moved q c m).counted steps watched) := by
  obtain ⟨spAt, spOk⟩ := h.threadField (k := ThreadBlock.lastSp) (n := 8) (by decide)
  obtain ⟨fpAt, fpOk⟩ := h.threadField (k := ThreadBlock.lastFp) (n := 8) (by decide)
  obtain ⟨-, pcOk⟩ := h.threadField (k := ThreadBlock.lastPc) (n := 8) (by decide)
  rw [← h.thread] at spAt fpAt spOk fpOk pcOk sp fp
  refine Vm.lastFrame_ok spOk fpOk pcOk ?_ ?_
  · rw [spAt]
    exact sp
  · rw [fpAt]
    exact fp

/-- The runtime finds the method of the frame. -/
theorem methodOf (h : a.Ready id m₀ v c m) (q steps : UInt64) (watched : List (UInt64 × UInt64)) :
    Vm.methodOf ⟨a.frame⟩ ((v.moved q c m).counted steps watched) =
      .ok id ((v.moved q c m).counted steps watched) := by
  obtain ⟨address, ok⟩ := h.frameSlot (k := 24) (by decide) (by decide)
  refine Vm.methodOf_ok (f := ⟨a.frame⟩) ok ?_
  change v.world.classes.methodAt? (load m.bytes (a.frame + -24).toNat 8) = some id
  rw [address]
  change v.world.classes.methodAt? (load m.bytes (a.frame.toNat - 24) 8) = some id
  rw [h.framed.method, h.known]

/-- The service reports the method with the number of its invocations. -/
theorem runOverflowService {n : UInt64} {hooks : Hooks} (h : a.Ready id m₀ v c m)
    (sp : load m.bytes (a.thread.toNat + 16) 8 ≠ 0)
    (fp : load m.bytes (a.thread.toNat + 24) 8 = a.frame)
    (count : load m.bytes (a.method.toNat + 12) 4 = n)
    (reported : hooks = v.hooks.counterOverflow (v.world.classes.member id) n.toUInt32)
    (next : ∀ m', a.Ready id m₀ { v with hooks := hooks } c m' →
      m.Changed m' (a.thread.toNat + 40) (a.thread.toNat + 44) →
      Vm.Arrives P turns (({ v with hooks := hooks } : Vm).moved (c.reg .link) c m')) :
    Vm.Arrives P (turns + 1) (v.moved Service.counterOverflow.address c m) := by
  have method := h.fits.method
  have h₁ := h.threadState .inRuntime
  have changed := changed_threadState h.fits .inRuntime
  have kept := changed.agrees (s := a.thread.toNat + 16) (t := a.thread.toNat + 32) (by omega)
  have frame := h₁.lastFrame (by rw [kept.load (by omega) (by omega)]; exact sp)
    (by rw [kept.load (by omega) (by omega)]; exact fp) Service.counterOverflow.address
  obtain ⟨address, counter⟩ :=
    h₁.methodField (k := MethodRecord.invocationCounter) (n := 4) (by decide)
  have place : (a.method + MethodRecord.invocationCounter).toNat = a.method.toNat + 12 := address
  have holds := ((changed.agrees (s := a.method.toNat + 12) (t := a.method.toNat + 16)
    (by omega)).load (Nat.le_refl _) (Nat.le_refl _)).trans count
  rw [← place, ← ClassTable.address_of_methodAt? h.known] at holds
  rw [← ClassTable.address_of_methodAt? h.known] at counter
  have performed := Vm.counterOverflow_ok frame (h₁.methodOf Service.counterOverflow.address)
    counter holds
  rw [← reported] at performed
  have h₂ : a.Ready id m₀ { v with hooks := hooks } c _ := (h₁.threadState .inGuest).ofVm rfl rfl
  have back := next _ h₂ (changed.trans (changed_threadState h₁.fits .inGuest))
  have open₀ := (h.threadField (k := ThreadBlock.threadState) (n := 4) (by decide)).2
  have open₁ := (h₁.threadField (k := ThreadBlock.threadState) (n := 4) (by decide)).2
  rw [← h.thread] at open₀ open₁ performed back
  exact .guestService (w := { v with hooks := hooks }) rfl open₀ performed open₁
    ⟨fun quiet => quiet, rfl, rfl⟩ back

end Ready

/-! ## The prologue -/

namespace Opened

theorem congr (h : a.Opened s id m₀ v c m) (same : ∀ r ∈ [Register.thread, .frame, .locals, .method,
    .operands, .sp], c'.reg r = c.reg r) : a.Opened s id m₀ v c' m where
  toReady := h.toReady.congr fun r hr =>
    same r (List.mem_append_left [Register.operands, Register.sp] hr)
  operands := (same _ (by simp)).trans h.operands
  sp := (same _ (by simp)).trans h.sp
  unwatched := h.unwatched
  room := h.room
  record := h.record

theorem setReg (h : a.Opened s id m₀ v c m) (r : Register) (n : UInt64)
    (free : r ∉ [Register.thread, .frame, .locals, .method, .operands, .sp]) :
    a.Opened s id m₀ v (c.setReg r n) m :=
  h.congr fun _ hs => c.reg_setReg_ne n fun e => free (e ▸ hs)

theorem setFlags (h : a.Opened s id m₀ v c m) (f : Flags) : a.Opened s id m₀ v (c.setFlags f) m :=
  h.congr fun _ _ => Cpu.reg_setFlags ..

/-- The thread's word about its lock and the number of invocations may be written. -/
theorem changed {lo hi : Nat} (h : a.Opened s id m₀ v c m) (hc : m.Changed m' lo hi)
    (place : a.thread.toNat + 8 ≤ lo ∧ hi ≤ a.thread.toNat + 48 ∨
      a.thread.toNat + 52 ≤ lo ∧ hi ≤ a.thread.toNat + 56 ∨
      a.frame.toNat - 64 ≤ lo ∧ hi ≤ a.frame.toNat - 48 ∨
      a.method.toNat + 12 ≤ lo ∧ hi ≤ a.method.toNat + 16) : a.Opened s id m₀ v c m' := by
  have method := h.fits.method
  have thread := h.fits.thread
  exact {
    toReady := h.toReady.changed hc (by unfold Spare; omega)
    operands := h.operands
    sp := h.sp
    unwatched := ((hc.agrees (s := a.thread.toNat + 56) (t := a.thread.toNat + 60) (by omega)).load
      (Nat.le_refl _) (Nat.le_refl _)).trans h.unwatched
    room := fun on => (h.room on).changed hc
    record := h.record.trans (hc.agrees (by omega)) }

/-- The byte about the lock is written. -/
theorem runLockStore (h : a.Opened s id m₀ v c m) {r : Register}
    (i : v.image.code.Fetches q (.store r (.base .thread ThreadBlock.doNotUnlock) .byte))
    (next : ∀ m', a.Opened s id m₀ v c m' →
      load m'.bytes (a.method.toNat + 12) 4 = load m.bytes (a.method.toNat + 12) 4 →
      Vm.Arrives P turns (v.moved (q + 4) c m')) : Vm.Arrives P (turns + 1) (v.moved q c m) := by
  have one : Width.byte.bytes.toNat = 1 := rfl
  have offset : ThreadBlock.doNotUnlock.toNat = 52 := rfl
  have method := h.fits.method
  refine h.runThreadStore i (by decide) fun m' _ changed _ => ?_
  exact next m' (h.changed changed (by omega))
    ((changed.agrees (s := a.method.toNat + 12) (t := a.method.toNat + 16) (by omega)).load
      (Nat.le_refl _) (Nat.le_refl _))

/-- The invocation is counted. -/
theorem runCount {n : UInt64} (h : a.Opened s id m₀ v c m) {overflow : CodeLabel} [Known overflow K]
    (count : load m.bytes (a.method.toNat + 12) 4 = n)
    (lay : Lays ⟨v.image.code, place⟩ ctx inStub K S (countInvocation overflow) q q' ())
    (next : ∀ c' m', a.Opened s id m₀ v c' m' → n + 1 ≠ ctx.settings.compileThreshold.toUInt64 →
      load m'.bytes (a.method.toNat + 12) 4 = (n + 1).toUInt32.toUInt64 →
      Vm.Arrives P turns (v.moved q' c' m'))
    (reached : ∀ c' m', a.Opened s id m₀ v c' m' → n + 1 = ctx.settings.compileThreshold.toUInt64 →
      load m'.bytes (a.method.toNat + 12) 4 = (n + 1).toUInt32.toUInt64 →
      Vm.Arrives P turns (v.moved (place overflow) c' m')) :
    Vm.Arrives P (turns + 6) (v.moved q c m) := by
  have offset : MethodRecord.invocationCounter.toNat = 12 := rfl
  have four : (4 : UInt64).toNat = 4 := rfl
  obtain ⟨address, ok⟩ := h.methodField (k := MethodRecord.invocationCounter) (n := 4) (by decide)
  have counter : (a.method + MethodRecord.invocationCounter).toNat = a.method.toNat + 12 := address
  have h₁ := h.changed (Guarded.changed_put m (a.method + MethodRecord.invocationCounter) 4 (n + 1))
    (by omega)
  have holds := Guarded.load_put_word (v := n + 1) ok
  rw [counter] at holds
  have free (d : Cpu) (same : ∀ r, r ≠ .scratch1 → r ≠ .scratch2 → d.reg r = c.reg r) :
      a.Opened s id m₀ v d _ :=
    h₁.congr fun r hr => same r (by revert r; decide) (by revert r; decide)
  exact .countInvocation ok (congrArg (· + _) h.registers.method) (counter ▸ count) lay
    (fun c' same below => next c' _ (free c' same) below holds)
    fun c' same on => reached c' _ (free c' same) on holds

/-- The shadow pages of the stack are there. -/
theorem runBangShadow (h : a.Opened ctx.settings id m₀ v c m)
    (lay : Lays ⟨v.image.code, place⟩ ctx inStub K S (bangShadow true) q q' ())
    (next : ∀ c', a.Opened ctx.settings id m₀ v c' m → Vm.Arrives P turns (v.moved q' c' m)) :
    Vm.Arrives P (turns + 3) (v.moved q c m) := by
  unfold bangShadow at lay
  replace lay := lay.settings_bind
  by_cases on : ctx.settings.stackBanging = true
  · replace lay := lay.ite_pos on
    have once : List.range' ctx.settings.shadowPages.toNat
        (ctx.settings.shadowPages.toNat + 1 - ctx.settings.shadowPages.toNat) =
          [ctx.settings.shadowPages.toNat] := by
      rw [Nat.add_sub_cancel_left]
      rfl
    simp only [↓reduceIte, once] at lay
    obtain ⟨q₁, touch, lay⟩ := Lays.forM_cons lay
    obtain ⟨rfl, -⟩ := lay.ended
    have page : ctx.settings.shadowPages.toNat.toUInt64 = ctx.settings.shadowPages :=
      UInt64.ofNat_toNat
    rw [page] at touch
    exact .touchStack (by rw [h.sp]; exact h.room on) touch fun n =>
      next _ (h.setReg .scratch2 n (by decide))
  · obtain ⟨rfl, -⟩ := (lay.ite_neg on).ended
    exact (next c h).le (by omega)

/-- The method need not be locked. -/
theorem runCheckUnsynchronized (h : a.Opened s id m₀ v c m)
    (plain : (v.world.classes.method id).access.isSynchronized = false)
    (lay : Lays ⟨v.image.code, place⟩ ctx inStub K S checkUnsynchronized q q' ())
    (next : ∀ c', a.Opened s id m₀ v c' m → Vm.Arrives P turns (v.moved q' c' m)) :
    Vm.Arrives P (turns + 3) (v.moved q c m) := by
  unfold checkUnsynchronized at lay
  replace lay := lay.settings_bind
  by_cases on : ctx.settings.debugChecks = true
  · replace lay := lay.ite_pos on
    obtain ⟨ok, lay⟩ := lay.newLabel_bind
    obtain ⟨i₁, lay⟩ := lay.emit_bind
    obtain ⟨i₂, lay⟩ := lay.emit_bind
    obtain ⟨i₃, lay⟩ := lay.emitTo_bind
    obtain ⟨-, lay⟩ := lay.emit_bind
    obtain ⟨here, rfl⟩ := lay.bind
    rw [here] at i₃
    refine h.runMethodLoad i₁ (by decide) h.recorded.flags (.test i₂ (.branchIf i₃ (fun _ => ?_)
      fun (locked : Condition.eq.holds (Flags.ofTest _) = false) => ?_))
    · exact next _ ((h.setReg .scratch1 _ (by decide)).setFlags _)
    · rw [Cpu.reg_setReg_self _ _ (by decide)] at locked
      have tested := has_of_test (v.world.classes.method id).access (b := Access.synchronizedBit)
        (k := 5) rfl
      have other : (v.world.classes.method id).access.has Access.synchronizedBit = false := plain
      rw [other] at tested
      exact absurd (tested.symm.trans locked) nofun
  · obtain ⟨rfl, -⟩ := (lay.ite_neg on).ended
    exact (next c h).le (by omega)

/-- No debugger is told. -/
theorem runNotifyEntry (h : a.Opened s id m₀ v c m)
    (lay : Lays ⟨v.image.code, place⟩ ctx inStub K S notifyEntry q q' ())
    (next : ∀ c', a.Opened s id m₀ v c' m → Vm.Arrives P turns (v.moved q' c' m)) :
    Vm.Arrives P (turns + 2) (v.moved q c m) := by
  unfold notifyEntry at lay
  obtain ⟨done, lay⟩ := lay.newLabel_bind
  obtain ⟨i₁, lay⟩ := lay.emit_bind
  obtain ⟨i₂, lay⟩ := lay.emitTo_bind
  obtain ⟨⟨⟩, q₁, -, lay⟩ := lay.split
  obtain ⟨here, rfl⟩ := lay.bind
  rw [here] at i₂
  exact h.runThreadSkip i₁ i₂ (by decide) (by decide) h.unwatched
    (next _ (h.setReg .x3 0 (by decide)))

/-- The overflow is reported, and the prologue goes on. -/
theorem runReportOverflow {n : UInt64} {hooks : Hooks} (h : a.Opened s id m₀ v c m)
    {continuation : CodeLabel} [Known continuation K]
    (count : load m.bytes (a.method.toNat + 12) 4 = n)
    (reported : hooks = v.hooks.counterOverflow (v.world.classes.member id) n.toUInt32)
    (lay : Lays ⟨v.image.code, place⟩ ctx inStub K S (reportOverflow continuation) q q' ())
    (next : ∀ c' m', a.Opened s id m₀ { v with hooks := hooks } c' m' →
      load m'.bytes (a.method.toNat + 12) 4 = n →
      Vm.Arrives P turns (({ v with hooks := hooks } : Vm).moved (place continuation) c' m')) :
    Vm.Arrives P (turns + 24) (v.moved q c m) := by
  unfold reportOverflow at lay
  obtain ⟨⟨⟩, q₁, service, lay⟩ := lay.split
  obtain ⟨i, rfl⟩ := lay.emitTo
  refine h.runCallVm (by decide) service
    fun c₁ m₁ m₂ K' r resume h₂ link _ same₁ sp fp changed₁ changed₂ => ?_
  have method := h.fits.method
  have thread := h.fits.thread
  refine h₂.runOverflowService ?_ fp ?_ reported fun m₃ h₃ changed₃ => ?_
  · rw [sp, h.operands, ← UInt64.toNat_inj.ne, toNat_add_neg (by change 64 ≤ _; omega)]
    change a.frame.toNat - 64 ≠ 0
    omega
  · rw [← count]
    have kept : m.Agrees m₂ (a.method.toNat + 12) (a.method.toNat + 16) :=
      (changed₁.agrees (by omega)).trans (changed₂.agrees (by omega))
    exact kept.load (Nat.le_refl _) (Nat.le_refl _)
  rw [link]
  refine h₃.runResume resume fun c₄ m₄ h₄ same₄ changed₄ => .branch i ?_
  have same {r : Register} (hr : r ∈ [Register.operands, .sp]) : c₄.reg r = c.reg r :=
    (same₄ r (by revert r; decide)).trans (same₁ r (by revert r; decide))
  have kept {lo hi : Nat} (away : hi ≤ a.thread.toNat + 8 ∨
      a.thread.toNat + 48 ≤ lo ∧ hi ≤ a.frame.toNat - 56) : m.Agrees m₄ lo hi :=
    (changed₁.agrees (by omega)).trans <| (changed₂.agrees (by omega)).trans <|
      (changed₃.agrees (by omega)).trans (changed₄.agrees (by omega))
  refine next c₄ m₄ ?_ (((kept (by omega)).load (Nat.le_refl _) (Nat.le_refl _)).trans count)
  exact {
    toReady := h₄
    operands := (same (by simp)).trans h.operands
    sp := (same (by simp)).trans h.sp
    unwatched := ((kept (by omega)).load
      (Nat.le_refl _) (Nat.le_refl _)).trans h.unwatched
    room := fun on =>
      ((((h.room on).changed changed₁).changed changed₂).changed changed₃).changed changed₄
    record := h.record.trans (kept (by omega)) }

/-- From where the prologue goes on after a report, the stack is touched. -/
theorem runContinuation (h : a.Opened ctx.settings id m₀ v c m) {continuation : CodeLabel}
    [Taken continuation S T]
    (plain : (v.world.classes.method id).access.isSynchronized = false)
    (lay : Lays ⟨v.image.code, place⟩ ctx inStub K S (do
      Emit.bind continuation
      bangShadow true
      strb Register.zero (threadField ThreadBlock.doNotUnlock)
      if false = true then lockMethod else checkUnsynchronized) q q' ())
    (next : ∀ c' m', a.Opened ctx.settings id m₀ v c' m' →
      load m'.bytes (a.method.toNat + 12) 4 = load m.bytes (a.method.toNat + 12) 4 →
      Vm.Arrives P turns (v.moved q' c' m')) :
    Vm.Arrives P (turns + 7) (v.moved q c m) := by
  obtain ⟨-, lay⟩ := lay.bind_bind
  obtain ⟨⟨⟩, q₁, bang, lay⟩ := lay.split
  obtain ⟨i, lay⟩ := lay.emit_bind
  rw [if_neg Bool.false_ne_true] at lay
  refine h.runBangShadow bang fun c₁ h₁ => h₁.runLockStore i fun m₂ h₂ kept => ?_
  exact h₂.runCheckUnsynchronized plain lay fun c₃ h₃ => next c₃ m₂ h₃ kept

/-- The prologue leaves the method with its frame and with one more invocation counted. An overflow
    is reported exactly if the count comes to the number in the settings. -/
theorem runPrologue {n : UInt64} {hooks : Hooks} (h : a.Opened ctx.settings id m₀ v c m)
    {overflow continuation : CodeLabel}
    [Known overflow K] [Known continuation K] [Taken continuation S T] {U : List CodeLabel}
    {r : UInt64} (plain : (v.world.classes.method id).access.isSynchronized = false)
    (count : load m.bytes (a.method.toNat + 12) 4 = n)
    (told : hooks = v.hooks.countedUp ctx.settings (v.world.classes.member id) n)
    (lay : Lays ⟨v.image.code, place⟩ ctx inStub K S (prologue true false overflow continuation) q
      q' ())
    (report : ctx.settings.countsInvocations = true →
      Lays ⟨v.image.code, place⟩ ctx inStub K U (reportOverflow continuation) (place overflow) r ())
    (next : ∀ c' m', a.Opened ctx.settings id m₀ { v with hooks := hooks } c' m' →
      load m'.bytes (a.method.toNat + 12) 4 = ctx.settings.countedUp n →
      Vm.Arrives P turns (({ v with hooks := hooks } : Vm).moved q' c' m')) :
    Vm.Arrives P (turns + 39) (v.moved q c m) := by
  unfold prologue at lay
  obtain ⟨i₁, lay⟩ := lay.emit_bind
  obtain ⟨i₂, lay⟩ := lay.emit_bind
  replace lay := lay.settings_bind
  refine .movImm i₁ ((h.setReg .scratch2 _ (by decide)).runLockStore i₂ fun m₁ h₁ kept₁ => ?_)
  replace kept₁ := kept₁.trans count
  unfold Hooks.countedUp at told
  unfold Settings.countedUp at next
  by_cases counts : ctx.settings.countsInvocations = true
  · obtain ⟨⟨⟩, q₁, counting, rest⟩ := (lay.ite_pos counts).split
    rw [if_pos counts] at next
    refine h₁.runCount kept₁ counting (fun c₂ m₂ h₂ below count₂ => ?_)
      fun c₂ m₂ h₂ reached count₂ => ?_
    · obtain rfl : hooks = v.hooks := told.trans (if_neg fun on => below on.2)
      exact h₂.runContinuation plain rest fun c₃ m₃ h₃ kept₃ =>
        (next c₃ m₃ h₃ (kept₃.trans count₂)).le (by omega)
    · rw [if_pos ⟨counts, reached⟩] at told
      have number : (n + 1).toUInt32.toUInt64.toUInt32 = ctx.settings.compileThreshold := by
        rw [reached]
        simp
      refine h₂.runReportOverflow count₂ (number ▸ told) (report counts) fun c₃ m₃ h₃ count₃ => ?_
      have here : place continuation = q₁ := rest.bind_bind.1
      rw [here]
      exact h₃.runContinuation plain rest fun c₄ m₄ h₄ kept₄ => next c₄ m₄ h₄ (kept₄.trans count₃)
  · rw [if_neg counts] at next
    obtain rfl : hooks = v.hooks := told.trans (if_neg fun on => counts on.1)
    exact h₁.runContinuation plain (lay.ite_neg counts)
      fun c₂ m₂ h₂ kept₂ => (next c₂ m₂ h₂ (kept₂.trans kept₁)).le (by omega)

end Opened

/-! ## The entry -/

/-- The method gets to where its function is linked, with its frame. Until then the invocation has
    been counted once, and it has been reported if it comes to the number in the settings. -/
theorem Entered.runNativeEntry {entry objectHandler n : UInt64} {hooks : Hooks}
    (h : a.Entered ctx.settings id v c m)
    (count : load m.bytes (a.method.toNat + 12) 4 = n)
    (told : hooks = v.hooks.countedUp ctx.settings (v.world.classes.member id) n)
    (lay : Lays ⟨v.image.code, place⟩ ctx true K [] (nativeEntry false objectHandler) q q' entry)
    (next : ∀ r c' m', v.image.LinksOr ctx.forwardException r →
      a.Opened ctx.settings id m { v with hooks := hooks } c' m' →
      load m'.bytes (a.method.toNat + 12) 4 = ctx.settings.countedUp n →
      Vm.Arrives P turns (({ v with hooks := hooks } : Vm).moved r c' m')) :
    Vm.Arrives P (turns + 59) (v.moved entry c m) := by
  unfold nativeEntry at lay
  replace lay := lay.pc_bind
  obtain ⟨i₁, lay⟩ := lay.emit_bind
  obtain ⟨i₂, lay⟩ := lay.emit_bind
  obtain ⟨i₃, lay⟩ := lay.emit_bind
  obtain ⟨i₄, lay⟩ := lay.emit_bind
  obtain ⟨i₅, lay⟩ := lay.emit_bind
  obtain ⟨⟨⟩, q₁, build, lay⟩ := lay.split
  obtain ⟨overflow, lay⟩ := lay.newLabel_bind
  obtain ⟨continuation, lay⟩ := lay.newLabel_bind
  obtain ⟨⟨⟩, q₂, begun, lay⟩ := lay.split
  obtain ⟨⟨⟩, q₃, notify, lay⟩ := lay.split
  obtain ⟨⟨⟩, q₄, link, lay⟩ := lay.split
  obtain ⟨⟨⟩, q₅, pass, lay⟩ := lay.split
  obtain ⟨⟨⟩, q₆, leave, lay⟩ := lay.split
  -- what follows the call, up to the report of an overflow
  obtain ⟨⟨⟩, _, -, lay⟩ := lay.split
  obtain ⟨⟨⟩, _, -, lay⟩ := lay.split
  obtain ⟨⟨⟩, _, -, lay⟩ := lay.split
  obtain ⟨⟨⟩, _, -, lay⟩ := lay.split
  replace lay := lay.ite_neg Bool.false_ne_true
  obtain ⟨⟨⟩, _, -, lay⟩ := lay.split
  obtain ⟨⟨⟩, _, -, lay⟩ := lay.split
  obtain ⟨⟨⟩, _, -, lay⟩ := lay.split
  obtain ⟨⟨⟩, _, -, lay⟩ := lay.split
  obtain ⟨⟨⟩, _, -, lay⟩ := lay.split
  obtain ⟨⟨⟩, _, -, lay⟩ := lay.split
  obtain ⟨here, lay⟩ := lay.bind_bind
  replace lay := lay.settings_bind
  have report : entry = q ∧ ∃ r, ctx.settings.countsInvocations = true →
      Lays ⟨v.image.code, place⟩ ctx true (continuation :: overflow :: K) []
        (reportOverflow continuation) (place overflow) r () := by
    by_cases counts : ctx.settings.countsInvocations = true
    · obtain ⟨⟨⟩, r, report, lay⟩ := (lay.ite_pos counts).split
      obtain ⟨-, rfl⟩ := lay.ended
      rw [← show place overflow = _ from here] at report
      exact ⟨rfl, r, fun _ => report⟩
    · obtain ⟨-, rfl⟩ := (lay.ite_neg counts).ended
      exact ⟨rfl, entry, fun on => absurd on counts⟩
  obtain ⟨rfl, r, report⟩ := report
  refine h.runArguments i₁ i₂ i₃ i₄ i₅ fun c₁ thread method locals sp => ?_
  refine h.runBuildFrame build thread method locals sp fun c₂ m₂ ready operands sp changed => ?_
  have fits := h.fits.method
  have above := h.fits.thread
  have opened : a.Opened ctx.settings id m v c₂ m₂ := by
    exact {
      toReady := ready
      operands
      sp
      unwatched :=
        ((changed.agrees (by omega)).load (Nat.le_refl _) (Nat.le_refl _)).trans h.unwatched
      room := fun on => (h.room on).changed changed
      record := changed.agrees (by omega) }
  have count₂ : load m₂.bytes (a.method.toNat + 12) 4 = n :=
    ((changed.agrees (s := a.method.toNat + 12) (t := a.method.toNat + 16) (by omega)).load
      (Nat.le_refl _) (Nat.le_refl _)).trans count
  refine opened.runPrologue h.plain count₂ told begun report fun c₃ m₃ h₃ count₃ => ?_
  exact h₃.runNotifyEntry notify fun c₄ h₄ =>
    next q₃ c₄ m₃ ⟨place, ctx, _, _, _, _, _, rfl, link, pass, leave⟩ h₄ count₃

end

/-- A native method is on its way to its function: it is entered, or it has its frame and is where
    its function is linked. -/
inductive Starts (a : NativeCall) (s : Settings) (id : MethodId) (v : Vm) (c : Cpu) (m : Guarded) :
    UInt64 → Prop
  | entered (h : a.Entered s id v c m) : a.Starts s id v c m (v.image.methodEntry .native)
  | framed {q : UInt64} (h : a.Ready id m v c m) (links : v.image.LinksAt q) :
    a.Starts s id v c m q

/-- From either start the method gets to where its function is linked, and can be called still. -/
theorem Starts.run {P : Vm → Prop} {turns : Nat} {q target : UInt64} (h : a.Starts s id v c m q)
    (extended : Image.Extended s v.image) (callable : a.Callable id v target m)
    (next : ∀ hooks r c' m', v.hooks.Told (v.world.classes.member id) hooks → v.image.LinksAt r →
      a.Ready id m { v with hooks := hooks } c' m' →
      a.Callable id { v with hooks := hooks } target m' →
      Vm.Arrives P turns (({ v with hooks := hooks } : Vm).moved r c' m')) :
    Vm.Arrives P (turns + 59) (v.moved q c m) := by
  cases h with
  | entered h =>
    obtain ⟨place, ctx, K, stubs, objectHandler, p, q, rfl, lay⟩ :=
      extended.entryCode .native (by decide)
    exact h.runNativeEntry rfl rfl lay fun r c' m' links opened _ =>
      next _ r c' m' (Hooks.told_countedUp _ _ _ _) links.linksAt opened.toReady
        (callable.agrees opened.record rfl rfl rfl)
  | framed h links => exact (next v.hooks q c m (.inl rfl) links h callable).le (by omega)

/-- Moreover an exception of the linking goes on at the other address. -/
inductive Approaches (a : NativeCall) (s : Settings) (id : MethodId) (forward : UInt64) (v : Vm)
    (c : Cpu) (m : Guarded) : UInt64 → Prop
  | entered (h : a.Entered s id v c m) : a.Approaches s id forward v c m (v.image.methodEntry .native)
  | framed {q : UInt64} (h : a.Ready id m v c m) (links : v.image.LinksOr forward q) :
    a.Approaches s id forward v c m q

theorem Approaches.starts {forward q : UInt64} (h : a.Approaches s id forward v c m q) :
    a.Starts s id v c m q := by
  cases h with
  | entered h => exact .entered h
  | framed h links => exact .framed h links.linksAt

/-- What the record says about the function is what it said before. -/
theorem Approaches.run {P : Vm → Prop} {turns : Nat} {q : UInt64} {i : Image}
    (h : a.Approaches s id i.stubs.forwardException v c m q) (generated : Image.generate s = .ok i)
    (extended : Image.Extended s v.image)
    (next : ∀ hooks r c' m', v.image.LinksOr i.stubs.forwardException r →
      a.Ready id m { v with hooks := hooks } c' m' →
      m.Agrees m' (a.method.toNat + 24) (a.method.toNat + 44) →
      Vm.Arrives P turns (({ v with hooks := hooks } : Vm).moved r c' m')) :
    Vm.Arrives P (turns + 59) (v.moved q c m) := by
  cases h with
  | entered h =>
    obtain ⟨place, ctx, K, stubs, objectHandler, p, q, rfl, forward, lay⟩ :=
      extended.entryLaid .native (by decide)
    rw [← forward i generated] at next
    exact h.runNativeEntry rfl rfl lay fun r c' m' links opened _ =>
      next _ r c' m' links opened.toReady opened.record
  | framed h links => exact (next v.hooks q c m links h fun _ _ _ => rfl).le (by omega)

end NativeCall
end TemplateVm
