import TemplateVm.Proofs.Activation.Banging
import TemplateVm.Proofs.Natives.Entry
import TemplateVm.Proofs.Natives.Rearming

set_option autoImplicit false
set_option synthInstance.maxSize 100000

/-!
# Leaving a native method

The two registers that the function may have left a result in lie on the operand stack while the
yellow zone is armed again. Then they are taken back, the handler for the type makes the value of
them, and the frame gives the sender its registers.
-/
namespace TemplateVm

open Memory (Guarded load)
open Emit

/-! ## Values in registers -/

/-- The registers hold the value that the host reads from the two words. What travels as an int is
    the int that stands for the value. -/
structure Cpu.Delivers (c : Cpu) (t : TypeTag) (n x : UInt64) : Prop where
  value : Value.ofRegisters t (c.reg .x0) (c.float .v0) = Value.ofRegisters t n x
  int : t.TravelsAsInt → c.reg .x0 = (Value.ofRegisters t n x).travelled.toInt64.toUInt64

theorem Cpu.Delivers.congr {c c' : Cpu} {t : TypeTag} {n x : UInt64} (h : c.Delivers t n x)
    (word : c'.reg .x0 = c.reg .x0) (float : c'.float .v0 = c.float .v0) : c'.Delivers t n x where
  value := by rw [word, float, h.value]
  int travels := word.trans (h.int travels)

section
variable {P : Vm → Prop} {turns : Nat} {v : Vm} {q q' entry : UInt64} {c : Cpu} {m : Guarded}
  {place : CodeLabel → UInt64} {ctx : CodeContext} {inStub : Bool} {K S : List CodeLabel}
  {t : TypeTag} {a : NativeCall} {id : MethodId} {m₀ : Guarded}

theorem NativeCall.Ready.runReferenceResult (h : a.Ready id m₀ v c m) (sp : UInt64)
    (lay : Lays ⟨v.image.code, place⟩ ctx inStub K S (resultHandler .object) q q' entry)
    (kept : load m.bytes (a.frame.toNat + 24) 8 = c.reg .x0)
    (stack : c.reg .sp = sp + 16 ∧ m.Clear sp.toNat (sp.toNat + 16) ∧ sp.toNat + 16 ≤ 2 ^ 64)
    (ok : c.reg .x0 = 0 ∨ v.world.store.heap.isObject (c.reg .x0) = true)
    (next : ∀ c' m', (∀ r, r ≠ .scratch1 → c'.reg r = c.reg r) → (∀ f, c'.float f = c.float f) →
      (m' = m ∨ ctx.settings.verifyReferences = true ∧ m.Changed m' sp.toNat (sp.toNat + 16)) →
      Vm.Arrives P turns (v.moved (c.reg .link) c' m')) :
    Vm.Arrives P (turns + 7) (v.moved entry c m) := by
  unfold resultHandler at lay
  dsimp only at lay
  replace lay := lay.pc_bind
  obtain ⟨i₁, lay⟩ := lay.emit_bind
  obtain ⟨⟨⟩, r, check, lay⟩ := lay.split
  obtain ⟨i₂, lay⟩ := lay.emit_bind
  obtain ⟨-, rfl⟩ := lay.ended
  obtain ⟨address, opens⟩ := h.temp
  refine .loadAt h.registers.frame i₁ address opens kept ?_
  rw [Cpu.setReg_reg]
  refine .verifyReference sp check (fun _ => stack) (fun _ => ok)
    fun c' m' regs floats wrote => .ret i₂ ?_
  rw [regs _ (by decide)]
  exact next c' m' regs floats wrote

theorem Cpu.Delivers.of_travelled {c' : Cpu} {n x : UInt64} (travels : t.TravelsAsInt)
    (narrowed : c'.reg .x0 = (Value.ofRegisters t n x).travelled.toInt64.toUInt64) :
    c'.Delivers t n x where
  value := by rw [narrowed, Value.ofRegisters_travelled travels]
  int _ := narrowed

/-- Types whose values do not travel as ints are not narrowed. -/
theorem Cpu.Delivers.of_same {c' : Cpu} {n x : UInt64} (wide : ¬ t.TravelsAsInt)
    (word : c'.reg .x0 = n) (float : c'.float .v0 = x) : c'.Delivers t n x where
  value := by rw [word, float]
  int travels := absurd travels wide

/-- The handler for the type delivers the result, and returns. -/
theorem NativeCall.Ready.runResult (h : a.Ready id m₀ v c m) (finishes : v.image.Finishes)
    (sp : UInt64)
    (stack : c.reg .sp = sp + 16 ∧ m.Clear sp.toNat (sp.toNat + 16) ∧ sp.toNat + 16 ≤ 2 ^ 64)
    (reference : t.isReference = true → load m.bytes (a.frame.toNat + 24) 8 = c.reg .x0 ∧
      (c.reg .x0 = 0 ∨ v.world.store.heap.isObject (c.reg .x0) = true))
    (next : ∀ c' m', c'.Delivers t (c.reg .x0) (c.float .v0) →
      (∀ r, r ≠ .x0 → r ≠ .scratch1 → c'.reg r = c.reg r) →
      m.Changed m' sp.toNat (sp.toNat + 16) → Vm.Arrives P turns (v.moved (c.reg .link) c' m')) :
    Vm.Arrives P (turns + 7) (v.moved (v.image.resultHandler t) c m) := by
  have refl := Guarded.Changed.refl m sp.toNat (sp.toNat + 16)
  -- arrays share the handler of other objects
  have object (kept : load m.bytes (a.frame.toNat + 24) 8 = c.reg .x0 ∧
        (c.reg .x0 = 0 ∨ v.world.store.heap.isObject (c.reg .x0) = true))
      (wide : ¬ t.TravelsAsInt) :
    Vm.Arrives P (turns + 7) (v.moved (v.image.resultHandler .object) c m) := by
    obtain ⟨place, ctx, K, S, p, q, lay⟩ := finishes.code .object (by decide)
    refine h.runReferenceResult sp lay kept.1 stack kept.2 fun c' m' same floats wrote =>
      next c' m' (.of_same wide (same _ (by decide)) (floats _)) (fun r _ hr => same r hr) ?_
    rcases wrote with rfl | ⟨-, changed⟩
    · exact refl
    · exact changed
  by_cases travels : t.TravelsAsInt
  · have listed : t ∈ TypeTag.resultHandlers := by
      revert travels
      cases t <;> decide
    obtain ⟨place, ctx, K, S, p, q, lay⟩ := finishes.code t listed
    exact runResultHandler travels lay fun c' narrowed same floats =>
      (next c' m (.of_travelled travels narrowed) same refl).le (by omega)
  have plain (listed : t ∈ TypeTag.resultHandlers)
      (code : resultHandler t = (do let entry ← pc; ret .link; pure entry)) :
      Vm.Arrives P (turns + 1) (v.moved (v.image.resultHandler t) c m) := by
    obtain ⟨place, ctx, K, S, p, q, lay⟩ := finishes.code t listed
    rw [code] at lay
    replace lay := lay.pc_bind
    obtain ⟨i, lay⟩ := lay.emit_bind
    obtain ⟨-, rfl⟩ := lay.ended
    exact .ret i (next c m (.of_same travels rfl rfl) (fun _ _ _ => rfl) refl)
  cases t with
  | object => exact object (reference rfl) travels
  | array => exact object (reference rfl) travels
  | long | void | float | double => exact (plain (by decide) rfl).le (by omega)
  | boolean | byte | char | short | int => exact absurd rfl travels

end

/-! ## The code -/

namespace Image

/-- A native entry arms the yellow zone at the address, and leaves the method then. -/
structure LeavesAt (i : Image) (q : UInt64) : Prop where
  code : ∃ code place ctx K S q₁ q₂ q₃ q₄ q₅ q₆ q₇,
    (∀ p j, code.Fetches p j → i.code.Fetches p j ∧ i.contains p = true) ∧
    Lays ⟨code, place⟩ ctx true K S Emit.reguard q q₁ () ∧
    Lays ⟨code, place⟩ ctx true K S pretendBytecode q₁ q₂ () ∧
    Lays ⟨code, place⟩ ctx true K S throwPending q₂ q₃ () ∧
    Lays ⟨code, place⟩ ctx true K S (notifyExit .none) q₃ q₄ () ∧
    Lays ⟨code, place⟩ ctx true K S (pop .long) q₄ q₅ () ∧
    Lays ⟨code, place⟩ ctx true K S (pop .double) q₅ q₆ () ∧
    code.Fetches q₆ (.callTo .x19) ∧
    Lays ⟨code, place⟩ ctx true K S removeFrame (q₆ + 4) q₇ () ∧
    code.Fetches q₇ (.ret .link)

/-- The entry for native methods that need no lock is left so. -/
theorem Bounded.leavesAt {s : Settings} {i : Image} (h : Bounded s i) : ∃ q, i.LeavesAt q := by
  obtain ⟨i₀, generated, -, -, -, keeps⟩ := h.generated.image
  obtain ⟨parts, -, cache, place, l, lay, inside⟩ := h.alone generated keeps
  obtain ⟨_, _, entries⟩ := (placed_of_lays lay).entries
  obtain ⟨_, _, code⟩ := entries.methodEntries .native (by decide)
  replace code : Lays _ _ _ _ _ (nativeEntry false _) _ _ _ := code
  unfold nativeEntry at code
  replace code := code.pc_bind
  obtain ⟨-, code⟩ := code.emit_bind
  obtain ⟨-, code⟩ := code.emit_bind
  obtain ⟨-, code⟩ := code.emit_bind
  obtain ⟨-, code⟩ := code.emit_bind
  obtain ⟨-, code⟩ := code.emit_bind
  obtain ⟨⟨⟩, _, -, code⟩ := code.split
  obtain ⟨overflow, code⟩ := code.newLabel_bind
  obtain ⟨continuation, code⟩ := code.newLabel_bind
  obtain ⟨⟨⟩, _, -, code⟩ := code.split
  obtain ⟨⟨⟩, _, -, code⟩ := code.split
  obtain ⟨⟨⟩, _, -, code⟩ := code.split
  obtain ⟨⟨⟩, _, -, code⟩ := code.split
  obtain ⟨⟨⟩, _, -, code⟩ := code.split
  obtain ⟨⟨⟩, _, -, code⟩ := code.split
  obtain ⟨⟨⟩, _, arm, code⟩ := code.split
  obtain ⟨⟨⟩, _, pretend, code⟩ := code.split
  obtain ⟨⟨⟩, _, pending, code⟩ := code.split
  replace code := code.ite_neg Bool.false_ne_true
  obtain ⟨⟨⟩, _, notice, code⟩ := code.split
  obtain ⟨⟨⟩, _, word, code⟩ := code.split
  obtain ⟨⟨⟩, _, float, code⟩ := code.split
  obtain ⟨call, code⟩ := code.emit_bind
  obtain ⟨⟨⟩, _, remove, code⟩ := code.split
  obtain ⟨back, -⟩ := code.emit_bind
  exact ⟨_, cache, place, _, _, _, _, _, _, _, _, _, _, inside, arm, pretend, pending, notice, word,
    float, call, remove, back⟩

end Image

/-! ## The frame -/

namespace NativeCall

variable {P : Vm → Prop} {turns : Nat} {v : Vm} {q q' : UInt64} {c : Cpu} {m m₀ : Guarded}
  {a : NativeCall} {id : MethodId} {place : CodeLabel → UInt64} {ctx : CodeContext} {inStub : Bool}
  {K S : List CodeLabel} {sender : Sender} {t : TypeTag} {n x : UInt64}

namespace Ready

/-- The code pretends that a bytecode is being executed. -/
theorem runPretendBytecode (h : a.Ready id m₀ v c m)
    (lay : Lays ⟨v.image.code, place⟩ ctx inStub K S pretendBytecode q q' ())
    (next : ∀ c', a.Ready id m₀ v c' m → c.Spares c' [.bytecode] →
      Vm.Arrives P turns (v.moved q' c' m)) : Vm.Arrives P (turns + 3) (v.moved q c m) := by
  unfold pretendBytecode loadMethod at lay
  obtain ⟨i₁, lay⟩ := lay.emit_bind
  obtain ⟨i₂, lay⟩ := lay.emit_bind
  obtain ⟨i₃, rfl⟩ := lay.emit
  refine h.runFrameLoad i₁ (by decide) (by decide) h.framed.method ?_
  have same : c.setReg .method a.method = c := by rw [← h.registers.method, Cpu.setReg_reg]
  rw [same]
  refine h.runMethodLoad i₂ (by decide) h.recorded.constMethod (.binary i₃ ?_)
  exact next _ ((h.setReg .bytecode _ (by decide)).setReg .bytecode _ (by decide))
    (((Cpu.Spares.refl c _).setReg (by simp) _).setReg (by simp) _)

/-- No exception is on its way. -/
theorem runThrowPending (h : a.Ready id m₀ v c m)
    (lay : Lays ⟨v.image.code, place⟩ ctx inStub K S throwPending q q' ())
    (next : ∀ c', a.Ready id m₀ v c' m → c.Spares c' [.scratch1] →
      Vm.Arrives P turns (v.moved q' c' m)) : Vm.Arrives P (turns + 2) (v.moved q c m) := by
  unfold throwPending at lay
  obtain ⟨absent, lay⟩ := lay.newLabel_bind
  obtain ⟨i₁, lay⟩ := lay.emit_bind
  obtain ⟨i₂, lay⟩ := lay.emitTo_bind
  obtain ⟨⟨⟩, _, -, lay⟩ := lay.split
  obtain ⟨⟨⟩, _, -, lay⟩ := lay.split
  obtain ⟨here, rfl⟩ := lay.bind
  rw [here] at i₂
  exact h.runThreadSkip i₁ i₂ (by decide) (by decide) h.framed.pending
    (next _ (h.setReg .scratch1 _ (by decide)) ((Cpu.Spares.refl c _).setReg (by simp) _))

/-- No debugger is told. -/
theorem runNotifyExit (h : a.Ready id m₀ v c m)
    (unwatched : load m.bytes (a.thread.toNat + 56) 4 = 0)
    (lay : Lays ⟨v.image.code, place⟩ ctx inStub K S (notifyExit .none) q q' ())
    (next : ∀ c', a.Ready id m₀ v c' m → c.Spares c' [.x3] →
      Vm.Arrives P turns (v.moved q' c' m)) : Vm.Arrives P (turns + 2) (v.moved q c m) := by
  unfold notifyExit at lay
  obtain ⟨done, lay⟩ := lay.newLabel_bind
  obtain ⟨i₁, lay⟩ := lay.emit_bind
  obtain ⟨i₂, lay⟩ := lay.emitTo_bind
  obtain ⟨⟨⟩, _, -, lay⟩ := lay.split
  obtain ⟨-, lay⟩ := lay.emit_bind
  obtain ⟨⟨⟩, _, -, lay⟩ := lay.split
  obtain ⟨⟨⟩, _, -, lay⟩ := lay.split
  obtain ⟨here, rfl⟩ := lay.bind
  rw [here] at i₂
  exact h.runThreadSkip i₁ i₂ (by decide) (by decide) unwatched
    (next _ (h.setReg .x3 _ (by decide)) ((Cpu.Spares.refl c _).setReg (by simp) _))

/-- A frame that the zone reaches up to is lost when the zone is armed, whatever has been returned:
    the first look at the frame throws a stack overflow. -/
theorem runLost (h : a.Ready id m₀ v c m) (zoned : v.map.Zoned)
    (disabled : v.map.guardWord m = GuardState.yellowDisabled.code.toUInt64)
    (agreed : v.hooks.shouldReguard.1 = true) (low : v.map.redEnd.toNat ≤ a.frame.toNat - 24)
    (high : a.frame.toNat - 24 < v.map.yellowEnd.toNat) (leaves : v.image.LeavesAt q) :
    Vm.Arrives (fun w => ∃ c' m', w = v.asked.moved v.image.exceptions.throwStackOverflow c' m')
      15 (v.moved q c m) := by
  obtain ⟨code, place, ctx, K, S, q₁, q₂, _, _, _, _, _, inside, arm, pretend, -⟩ := leaves.code
  refine h.runReguard zoned
    (arm.mono (G := ⟨v.image.code, place⟩) rfl fun p j fetch => (inside p j fetch).1)
    fun c₁ spares => ?_
  have armed : v.rearmed m = (v.asked, v.yellowEnabled m) := by
    rw [Vm.rearmed, if_pos disabled, if_pos agreed]
  rw [armed]
  unfold pretendBytecode loadMethod at pretend
  obtain ⟨i, -⟩ := pretend.emit_bind
  obtain ⟨fetch, within⟩ := inside _ _ i
  have frame : c₁.reg .frame = a.frame := (spares.regs _ (by decide)).trans h.registers.frame
  obtain ⟨address, opens⟩ := h.frameSlot (k := 24) (by decide) (by decide)
  have target : c₁.target (.base .frame Frame.method) = a.frame + -24 := by
    rw [Cpu.target_base, frame]
    rfl
  have fault : (v.yellowEnabled m).fault? (a.frame + -24) 8 .read =
      some ⟨a.frame + -24, .read, some GuardTag.yellowZone⟩ := by
    refine ((Guarded.changed_put _ _ _ _).fault?_eq .read).trans ?_
    exact opens.fault?_protect (by rw [address]; exact low) (by rw [address]; exact high)
      (by decide) .read
  refine Vm.Arrives.fault (w := v.asked.moved v.image.exceptions.throwStackOverflow _ _) fetch
    (Vm.effect_load_fault ((congrArg (Guarded.fault? _ · 8 .read) target).trans fault))
    (Vm.handleFault_yellow rfl within (h.openArmed zoned).put) ⟨fun quiet => quiet, rfl, rfl⟩
    (.here ⟨_, _, rfl⟩)

end Ready

/-- The function has returned a result of the type, and both registers that it may have left it in
    lie on the operand stack. A reference has been taken out of its handle, and is kept in the frame
    too. The frame has saved the registers of the sender, and below it is room for two words. No
    debugger is to be told. -/
structure Answered (a : NativeCall) (id : MethodId) (m₀ : Guarded) (sender : Sender) (t : TypeTag)
    (n x : UInt64) (v : Vm) (c : Cpu) (m : Guarded) : Prop extends a.Ready id m₀ v c m where
  operands : c.reg .operands = a.frame + -96
  sp : c.reg .sp = a.frame + -96
  handler : c.reg .x19 = v.image.resultHandler t
  word : load m.bytes (a.frame.toNat - 96) 8 = n
  float : load m.bytes (a.frame.toNat - 80) 8 = x
  reference : t.isReference = true → load m.bytes (a.frame.toNat + 24) 8 = n ∧
    (n = 0 ∨ v.world.store.heap.isObject n = true)
  saved : sender.SavedAt a.frame m
  unwatched : load m.bytes (a.thread.toNat + 56) 4 = 0
  below : m.Clear (a.frame.toNat - 112) (a.frame.toNat - 64)

namespace Answered

theorem congr {c' : Cpu} (h : a.Answered id m₀ sender t n x v c m)
    (same : ∀ r ∈ [Register.thread, .frame, .locals, .method, .operands, .sp, .x19],
      c'.reg r = c.reg r) : a.Answered id m₀ sender t n x v c' m :=
  { h with
    toReady := h.toReady.congr fun r hr => same r (by revert r; decide)
    operands := (same _ (by simp)).trans h.operands
    sp := (same _ (by simp)).trans h.sp
    handler := (same _ (by simp)).trans h.handler }

/-- Memory that is the same from the operand stack up, and where the thread says whether it is
    watched. -/
theorem agrees {m' : Guarded} (h : a.Answered id m₀ sender t n x v c m)
    (ready : a.Ready id m₀ v c m') (stack : m.Agrees m' (a.frame.toNat - 96) (a.frame.toNat + 32))
    (thread : m.Agrees m' (a.thread.toNat + 56) (a.thread.toNat + 60))
    (below : m'.Clear (a.frame.toNat - 112) (a.frame.toNat - 64))
    (room : 112 ≤ a.frame.toNat) : a.Answered id m₀ sender t n x v c m' where
  toReady := ready
  operands := h.operands
  sp := h.sp
  handler := h.handler
  word := (stack.load (by omega) (by omega)).trans h.word
  float := (stack.load (by omega) (by omega)).trans h.float
  reference isReference :=
    ⟨(stack.load (by omega) (by omega)).trans (h.reference isReference).1,
      (h.reference isReference).2⟩
  saved := h.saved.agrees (stack.mono (by omega) (by omega))
  unwatched := (thread.load (Nat.le_refl _) (Nat.le_refl _)).trans h.unwatched
  below := below

/-- Another state of the runtime with the same thread, classes, code and objects. -/
theorem ofVm {w : Vm} (h : a.Answered id m₀ sender t n x v c m) (map : w.map = v.map)
    (image : w.image = v.image) (world : w.world = v.world) :
    a.Answered id m₀ sender t n x w c m :=
  { h with
    toReady := h.toReady.ofVm map (congrArg World.classes world)
    handler := by rw [image]; exact h.handler
    reference := by rw [world]; exact h.reference }

/-- A frame above the yellow zone is as it was when the zone was to be armed. -/
theorem rearmed (h : a.Answered id m₀ sender t n x v c m) (zoned : v.map.Zoned)
    (above : v.map.yellowEnd.toNat + 112 ≤ a.frame.toNat) :
    a.Answered id m₀ sender t n x (v.rearmed m).1 c (v.rearmed m).2 := by
  have armed : a.Answered id m₀ sender t n x v c (v.yellowEnabled m) := by
    have below := zoned.ordered.thread
    have stack := zoned.ordered.stack
    have zone := zoned.yellow
    have ends : v.map.redEnd + v.map.yellowSize = v.map.yellowEnd := rfl
    have size : Place.threadSize.toNat = 0x1000 := rfl
    have address := (h.threadField (k := ThreadBlock.guardState) (n := 4) (by decide)).1
    have field : ThreadBlock.guardState.toNat = 60 := rfl
    have four : (4 : UInt64).toNat = 4 := rfl
    have changed := Guarded.changed_put
      (m.protect v.map.redEnd v.map.yellowSize GuardTag.yellowZone)
      (v.map.thread + ThreadBlock.guardState) 4 GuardState.enabled.code.toUInt64
    rw [h.thread] at below changed
    have away {lo hi : Nat} (apart : hi ≤ a.thread.toNat + 60 ∨ a.thread.toNat + 64 ≤ lo) :
        m.Agrees (v.yellowEnabled m) lo hi := by
      unfold Vm.yellowEnabled
      rw [h.thread]
      exact changed.agrees (by omega)
    refine h.agrees (h.toReady.yellowEnabled zoned (by omega)) (away (.inr (by omega)))
      (away (.inl (by omega))) ?_ (by omega)
    unfold Vm.yellowEnabled
    rw [h.thread]
    exact (h.below.protect (.inl (by rw [ends]; omega))).changed changed
  unfold Vm.rearmed
  split
  · dsimp only
    split
    · exact armed.ofVm rfl rfl rfl
    · exact h.ofVm rfl rfl rfl
  · exact h

/-- The result is taken from the operand stack. -/
theorem runTake (h : a.Answered id m₀ sender t n x v c m) {q₁ : UInt64}
    (word : Lays ⟨v.image.code, place⟩ ctx inStub K S (pop .long) q q₁ ())
    (float : Lays ⟨v.image.code, place⟩ ctx inStub K S (pop .double) q₁ q' ())
    (next : ∀ c', a.Ready id m₀ v c' m → c'.reg .x0 = n → c'.float .v0 = x →
      (∀ r, r ≠ .x0 → r ≠ .operands → c'.reg r = c.reg r) → Vm.Arrives P turns (v.moved q' c' m)) :
    Vm.Arrives P (turns + 2) (v.moved q c m) := by
  obtain ⟨i₁, rfl⟩ := Lays.emit (i := .load .x0 (.post .operands 16) .double false) word
  obtain ⟨i₂, rfl⟩ := Lays.emit (i := .loadFloat .v0 (.post .operands 16) .double) float
  have thread := h.fits.thread
  have down (k : UInt64) (hk : k.toNat ≤ 112) (room : 112 ≤ a.frame.toNat) :
      (a.frame + -k).toNat = a.frame.toNat - k.toNat := toNat_add_neg (by omega)
  have word : (a.frame + -96).toNat = a.frame.toNat - 96 := down 96 (by decide) (by omega)
  have float : (a.frame + -80).toNat = a.frame.toNat - 80 := down 80 (by decide) (by omega)
  have eight : (8 : UInt64).toNat = 8 := rfl
  refine .load i₁ ?_ ?_
  · rw [Cpu.target_post, h.operands]
    exact h.below.open (by omega) (by change _ + 8 ≤ _; omega)
  have first : load m.bytes (a.frame + -96).toNat Width.double.bytes.toNat = n := by
    rw [word]
    exact h.word
  have step : a.frame + -96 + 16 = a.frame + -80 := UInt64.add_assoc ..
  rw [Cpu.target_post, Cpu.rebase_post, h.operands, first, step]
  have top : ((c.setReg .operands (a.frame + -80)).setReg .x0 n).reg .operands = a.frame + -80 := by
    rw [Cpu.reg_setReg_ne _ _ (by decide), Cpu.reg_setReg_self _ _ (by decide)]
  have second : load m.bytes (a.frame + -80).toNat Precision.double.bytes.toNat = x := by
    rw [float]
    exact h.float
  refine .loadFloat i₂ ?_ ?_
  · rw [Cpu.target_post, top]
    exact h.below.open (by omega) (by change _ + 8 ≤ _; omega)
  rw [Cpu.target_post, Cpu.rebase_post, top, second]
  generalize a.frame + -80 + 16 = z
  have kept {r : Register} (h₁ : r ≠ .x0) (h₂ : r ≠ .operands) :
      ((((c.setReg .operands (a.frame + -80)).setReg .x0 n).setReg .operands z).setFloat .v0
        x).reg r = c.reg r := by
    rw [Cpu.reg_setFloat, Cpu.reg_setReg_ne _ _ h₂, Cpu.reg_setReg_ne _ _ h₁,
      Cpu.reg_setReg_ne _ _ h₂]
  refine next _ (h.toReady.congr fun r hr => kept ?_ ?_) ?_ ?_ fun r h₁ h₂ => kept h₁ h₂
  · revert r
    decide
  · revert r
    decide
  · rw [Cpu.reg_setFloat, Cpu.reg_setReg_ne _ _ (by decide), Cpu.reg_setReg_self _ _ (by decide)]
  · rw [Cpu.float_setFloat, if_pos rfl]

/-- A method whose frame is above the yellow zone is left with its result, whatever the policy says
    about the zone. -/
theorem runLeaving (h : a.Answered id m₀ sender t n x v c m) (zoned : v.map.Zoned)
    (above : v.map.yellowEnd.toNat + 112 ≤ a.frame.toNat) (finishes : v.image.Finishes)
    (leaves : v.image.LeavesAt q) :
    Vm.Arrives (fun w => ∃ c' m', w = (v.rearmed m).1.moved sender.link c' m' ∧
      sender.Resumed c' ∧ c'.Delivers t n x ∧
      (v.rearmed m).2.Changed m' (a.frame.toNat - 112) (a.frame.toNat - 96))
      37 (v.moved q c m) := by
  obtain ⟨code, place, ctx, K, S, q₁, q₂, q₃, q₄, q₅, q₆, q₇, inside, arm, pretend, pending, notice,
    word, float, call, remove, back⟩ := leaves.code
  refine h.toReady.runReguard zoned
    (arm.mono (G := ⟨v.image.code, place⟩) rfl fun p j fetch => (inside p j fetch).1)
    fun c₁ spares₁ => ?_
  have h₁ := (h.rearmed zoned above).congr fun r hr => spares₁.regs r (by revert r; decide)
  have image : (v.rearmed m).1.image = v.image := by rw [v.rearmed_eq m]
  have fetches (p : UInt64) (j : Instruction UInt64) (fetch : code.Fetches p j) :
      (v.rearmed m).1.image.code.Fetches p j := image ▸ (inside p j fetch).1
  rw [← image] at finishes
  generalize (v.rearmed m).1 = w at *
  generalize (v.rearmed m).2 = m' at *
  refine h₁.toReady.runPretendBytecode (pretend.mono (G := ⟨_, place⟩) rfl fetches)
    fun c₂ ready₂ spares₂ => ?_
  refine ready₂.runThrowPending (pending.mono (G := ⟨_, place⟩) rfl fetches)
    fun c₃ ready₃ spares₃ => ?_
  refine ready₃.runNotifyExit h₁.unwatched (notice.mono (G := ⟨_, place⟩) rfl fetches)
    fun c₄ _ spares₄ => ?_
  have spares : c₁.Spares c₄ [.bytecode, .scratch1, .x3] :=
    (spares₂.mono (by decide)).trans ((spares₃.mono (by decide)).trans (spares₄.mono (by decide)))
  have h₄ := h₁.congr fun r hr => spares.regs r (by revert r; decide)
  refine h₄.runTake (word.mono (G := ⟨_, place⟩) rfl fetches)
    (float.mono (G := ⟨_, place⟩) rfl fetches) fun c₅ ready₅ x0 v0 same₅ =>
    .callTo (fetches _ _ call) ?_
  rw [same₅ .x19 (by decide) (by decide), h₄.handler]
  have locals := h₄.fits.locals
  have parameters := h₄.fits.parameters
  have down : (a.frame + -112).toNat = a.frame.toNat - 112 := toNat_add_neg (by change 112 ≤ _; omega)
  have stack : (c₅.setReg .link (q₆ + 4)).reg .sp = a.frame + -112 + 16 ∧
      m'.Clear (a.frame + -112).toNat ((a.frame + -112).toNat + 16) ∧
      (a.frame + -112).toNat + 16 ≤ 2 ^ 64 := by
    refine ⟨?_, h₄.below.mono (by omega) (by omega), by omega⟩
    rw [Cpu.reg_setReg_ne _ _ (by decide), same₅ .sp (by decide) (by decide), h₄.sp,
      UInt64.add_assoc]
    rfl
  have word : (c₅.setReg .link (q₆ + 4)).reg .x0 = n := (Cpu.reg_setReg_ne _ _ (by decide)).trans x0
  have float : (c₅.setReg .link (q₆ + 4)).float .v0 = x := (Cpu.float_setReg ..).trans v0
  have returns : (c₅.setReg .link (q₆ + 4)).reg .link = q₆ + 4 := Cpu.reg_setReg_self _ _ (by decide)
  refine (ready₅.setReg .link _ (by decide)).runResult finishes _ stack
    (by rw [word]; exact h₄.reference) fun c₆ m₆ delivers same₆ changed => ?_
  rw [word, float] at delivers
  rw [down, show a.frame.toNat - 112 + 16 = a.frame.toNat - 96 by omega] at changed
  rw [returns]
  have frame : c₆.reg .frame = a.frame := by
    rw [same₆ .frame (by decide) (by decide)]
    exact (ready₅.setReg .link (q₆ + 4) (by decide)).registers.frame
  have clear := h₄.fits.clearStack.changed changed
  refine (h₄.saved.agrees (changed.agrees (by omega))).runRemoveFrame frame
    (clear.mono (by omega) (by omega)) (by omega) (by omega)
    (remove.mono (G := ⟨_, place⟩) rfl fetches)
    fun c₇ resumed spares₇ => .ret (fetches _ _ back) ?_
  rw [resumed.link]
  exact .here ⟨c₇, m₆, rfl, resumed,
    delivers.congr (spares₇.regs _ (by decide)) (spares₇.floats _), changed⟩

end Answered

/-- The frame of a native method is above the zone if its caller is above the red zone by more pages
    than the zone has, as it is after it has touched so many pages with the zone disarmed. -/
theorem Entered.above {s : Settings} (h : a.Entered s id v c m) (zoned : v.map.Zoned)
    (ahead : v.map.redEnd.toNat + s.shadowPages.toNat * v.map.pageSize.toNat ≤ (c.reg .sp).toNat)
    (within : (c.reg .sp).toNat ≤ (c.reg .operands).toNat)
    (more : v.map.yellowPages.toNat < s.shadowPages.toNat) :
    v.map.yellowEnd.toNat + 112 ≤ a.frame.toNat := by
  have frame := h.frame
  have page := zoned.page
  have yellow := zoned.yellow
  have pages : (v.map.yellowPages.toNat + 1) * v.map.pageSize.toNat ≤
      s.shadowPages.toNat * v.map.pageSize.toNat := Nat.mul_le_mul_right _ more
  rw [Nat.succ_mul] at pages
  omega

end NativeCall
end TemplateVm
