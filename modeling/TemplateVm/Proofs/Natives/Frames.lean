import TemplateVm.Proofs.Activation.Services
import TemplateVm.Proofs.Natives.Formats
import TemplateVm.Proofs.Natives.Handlers

set_option autoImplicit false
set_option synthInstance.maxSize 100000

/-!
# Frames of native methods

`NativeCall.Ready` says that a native method has its frame: the registers are those of the
activation, the records of the method and of its class are in memory, and the parameters are what
they were at the start. Nothing that happens up to the call of the function writes to any of these.
-/
namespace TemplateVm

open Memory (Guarded load)

/-- The places of an activation of a native method. -/
structure NativeCall where
  thread : UInt64
  method : UInt64
  constMethod : UInt64
  pool : UInt64
  frame : UInt64
  /-- The first parameter; the others lie below it. -/
  locals : UInt64

namespace NativeCall

/-- The records lie below the block of the thread, that of the method highest, and the frame lies
    above it, below the given number of words of parameters. -/
structure Fits (a : NativeCall) (holder : UInt64) (words : Nat) (m : Guarded) : Prop where
  pool : 0x1000 ≤ a.pool.toNat ∧ a.pool.toNat + 8 ≤ a.method.toNat
  constMethod : 0x1000 ≤ a.constMethod.toNat ∧ a.constMethod.toNat + 8 ≤ a.method.toNat
  holder : 0x1000 ≤ holder.toNat ∧ holder.toNat + 16 ≤ a.method.toNat
  method : a.method.toNat + 48 ≤ a.thread.toNat
  thread : a.thread.toNat + 0x1000 + 64 ≤ a.frame.toNat
  parameters : a.frame.toNat + 24 + 8 * words ≤ a.locals.toNat
  locals : a.locals.toNat + 8 < 2 ^ 64
  clear : m.Clear 0x1000 (a.thread.toNat + 0x1000)
  clearStack : m.Clear (a.frame.toNat - 64) (a.locals.toNat + 8)

/-- The registers that the entry relies on. -/
structure Registers (a : NativeCall) (c : Cpu) : Prop where
  thread : c.reg .thread = a.thread
  frame : c.reg .frame = a.frame
  locals : c.reg .locals = a.locals
  method : c.reg .method = a.method

/-- The records lead from the method to its class and to the object of the class. -/
structure Recorded (a : NativeCall) (t : ClassTable) (id : MethodId) (m : Guarded) : Prop where
  flags : load m.bytes (a.method.toNat + 8) 4 = (t.method id).access.bits.toUInt64
  constMethod : load m.bytes a.method.toNat 8 = a.constMethod
  constants : load m.bytes a.constMethod.toNat 8 = a.pool
  holder : load m.bytes a.pool.toNat 8 = (t.get (t.method id).holder).address
  mirror : load m.bytes ((t.get (t.method id).holder).address.toNat + 8) 8 =
    (t.get (t.method id).holder).classObject

/-- No exception is on its way, no frame is to be popped, and the frame knows its method and
    locals. -/
structure Framed (a : NativeCall) (m : Guarded) : Prop where
  pending : load m.bytes a.thread.toNat 8 = 0
  pop : (load m.bytes (a.thread.toNat + 48) 4) &&& 1 = 0
  method : load m.bytes (a.frame.toNat - 24) 8 = a.method
  locals : load m.bytes (a.frame.toNat - 48) 8 = a.locals

/-- Words of the receiver. -/
def receivers (t : ClassTable) (id : MethodId) : Nat :=
  if (t.method id).access.isStatic then 0 else 1

/-- Words of the receiver and of the parameters. -/
def words (t : ClassTable) (id : MethodId) : Nat :=
  receivers t id + (t.method id).descriptor.parameterWords

/-- The method has its frame, and its parameters are those in the memory `m₀`. -/
structure Ready (a : NativeCall) (id : MethodId) (m₀ : Guarded) (v : Vm) (c : Cpu) (m : Guarded) :
    Prop where
  registers : a.Registers c
  fits : a.Fits (v.world.classes.get (v.world.classes.method id).holder).address
    (words v.world.classes id) m
  recorded : a.Recorded v.world.classes id m
  framed : a.Framed m
  thread : v.map.thread = a.thread
  known : v.world.classes.methodAt? a.method = some id
  parameters : m₀.Agrees m (a.frame.toNat + 32) (a.locals.toNat + 8)

/-! ## What stays -/

theorem Registers.congr {a : NativeCall} {c c' : Cpu} (h : a.Registers c)
    (same : ∀ r ∈ [Register.thread, .frame, .locals, .method], c'.reg r = c.reg r) :
    a.Registers c' :=
  ⟨(same _ (by simp)).trans h.thread, (same _ (by simp)).trans h.frame,
    (same _ (by simp)).trans h.locals, (same _ (by simp)).trans h.method⟩

/-- Bytes that may be written: all of the thread's block but the pending exception and the request
    to pop a frame, the frame's word for the bytecode, its place for a reference, and what the
    record of the method says about the function and the number of its invocations. -/
def Spare (a : NativeCall) (lo hi : Nat) : Prop :=
  (a.thread.toNat + 8 ≤ lo ∧ hi ≤ a.thread.toNat + 48) ∨
    (a.thread.toNat + 52 ≤ lo ∧ hi ≤ a.thread.toNat + 0x1000) ∨
    (a.frame.toNat - 64 ≤ lo ∧ hi ≤ a.frame.toNat - 48) ∨
    (a.frame.toNat + 24 ≤ lo ∧ hi ≤ a.frame.toNat + 32) ∨
    (a.method.toNat + 24 ≤ lo ∧ hi ≤ a.method.toNat + 44) ∨
    (a.method.toNat + 12 ≤ lo ∧ hi ≤ a.method.toNat + 16)

/-- A field of the thread's block. -/
theorem Fits.threadField {a : NativeCall} {holder : UInt64} {words : Nat} {m : Guarded}
    (f : a.Fits holder words m) {k n : UInt64} (below : k.toNat + n.toNat ≤ 0x1000) :
    (a.thread + k).toNat = a.thread.toNat + k.toNat ∧ m.Open (a.thread + k) n := by
  have method := f.method
  have constMethod := f.constMethod
  have thread := f.thread
  have parameters := f.parameters
  have locals := f.locals
  have address : (a.thread + k).toNat = a.thread.toNat + k.toNat := toNat_add_of_lt (by omega)
  exact ⟨address, f.clear.open (by omega) (by omega)⟩

namespace Ready

variable {a : NativeCall} {id : MethodId} {m₀ m m' : Guarded} {v w : Vm} {c c' : Cpu} {lo hi : Nat}

theorem changed (h : a.Ready id m₀ v c m) (hc : m.Changed m' lo hi) (spare : a.Spare lo hi) :
    a.Ready id m₀ v c m' := by
  have f := h.fits
  have pool := f.pool
  have constMethod := f.constMethod
  have holder := f.holder
  have method := f.method
  have thread := f.thread
  have parameters := f.parameters
  unfold Spare at spare
  have keeps {j k : Nat} (away : j + k ≤ lo ∨ hi ≤ j) : load m'.bytes j k = load m.bytes j k :=
    (hc.agrees (s := j) (t := j + k) away).load (Nat.le_refl _) (Nat.le_refl _)
  exact {
    registers := h.registers
    fits := { f with clear := f.clear.changed hc, clearStack := f.clearStack.changed hc }
    recorded :=
      { flags := (keeps (by omega)).trans h.recorded.flags
        constMethod := (keeps (by omega)).trans h.recorded.constMethod
        constants := (keeps (by omega)).trans h.recorded.constants
        holder := (keeps (by omega)).trans h.recorded.holder
        mirror := (keeps (by omega)).trans h.recorded.mirror }
    framed :=
      { pending := (keeps (by omega)).trans h.framed.pending
        pop := by rw [keeps (by omega), h.framed.pop]
        method := (keeps (by omega)).trans h.framed.method
        locals := (keeps (by omega)).trans h.framed.locals }
    thread := h.thread
    known := h.known
    parameters := h.parameters.trans (hc.agrees (by omega)) }

theorem congr (h : a.Ready id m₀ v c m)
    (same : ∀ r ∈ [Register.thread, .frame, .locals, .method], c'.reg r = c.reg r) :
    a.Ready id m₀ v c' m := { h with registers := h.registers.congr same }

theorem setReg (h : a.Ready id m₀ v c m) (r : Register) (n : UInt64)
    (free : r ∉ [Register.thread, .frame, .locals, .method]) : a.Ready id m₀ v (c.setReg r n) m :=
  h.congr fun _ hs => c.reg_setReg_ne n fun e => free (e ▸ hs)

theorem setFlags (h : a.Ready id m₀ v c m) (f : Flags) : a.Ready id m₀ v (c.setFlags f) m :=
  h.congr fun _ _ => Cpu.reg_setFlags ..

/-- Another state of the runtime with the same thread and classes. -/
theorem ofVm (h : a.Ready id m₀ v c m) (map : w.map = v.map)
    (classes : w.world.classes = v.world.classes) : a.Ready id m₀ w c m where
  registers := h.registers
  fits := by rw [classes]; exact h.fits
  recorded := by rw [classes]; exact h.recorded
  framed := h.framed
  thread := by rw [map]; exact h.thread
  known := by rw [classes]; exact h.known
  parameters := h.parameters

/-! ## Accesses -/

/-- A field of the thread's block. -/
theorem threadField (h : a.Ready id m₀ v c m) {k n : UInt64} (below : k.toNat + n.toNat ≤ 0x1000) :
    (a.thread + k).toNat = a.thread.toNat + k.toNat ∧ m.Open (a.thread + k) n :=
  h.fits.threadField below

/-- A field of the method's record. -/
theorem methodField (h : a.Ready id m₀ v c m) {k n : UInt64} (below : k.toNat + n.toNat ≤ 48) :
    (a.method + k).toNat = a.method.toNat + k.toNat ∧ m.Open (a.method + k) n := by
  have f := h.fits
  have method := f.method
  have constMethod := f.constMethod
  have thread := f.thread
  have parameters := f.parameters
  have locals := f.locals
  have address : (a.method + k).toNat = a.method.toNat + k.toNat := toNat_add_of_lt (by omega)
  exact ⟨address, f.clear.open (by omega) (by omega)⟩

/-- A word below the frame pointer. -/
theorem frameSlot (h : a.Ready id m₀ v c m) {k : UInt64} (hk : k.toNat ≤ 64) (pos : 8 ≤ k.toNat) :
    (a.frame + -k).toNat = a.frame.toNat - k.toNat ∧ m.Open (a.frame + -k) 8 := by
  have f := h.fits
  have thread := f.thread
  have parameters := f.parameters
  have eight : (8 : UInt64).toNat = 8 := rfl
  have address : (a.frame + -k).toNat = a.frame.toNat - k.toNat := toNat_add_neg (by omega)
  exact ⟨address, f.clearStack.open (by omega) (by omega)⟩

/-- The place for a reference. -/
theorem temp (h : a.Ready id m₀ v c m) :
    (a.frame + Frame.referenceTemp).toNat = a.frame.toNat + 24 ∧
      m.Open (a.frame + Frame.referenceTemp) 8 := by
  have f := h.fits
  have parameters := f.parameters
  have locals := f.locals
  have offset : Frame.referenceTemp.toNat = 24 := rfl
  have eight : (8 : UInt64).toNat = 8 := rfl
  have address : (a.frame + Frame.referenceTemp).toNat = a.frame.toNat + 24 :=
    toNat_add_of_lt (by omega)
  exact ⟨address, f.clearStack.open (by omega) (by omega)⟩

section
variable {P : Vm → Prop} {turns : Nat} {q : UInt64} {r : Register} {k : UInt64}

/-- A register is stored in the thread's block. -/
theorem runThreadStore (h : a.Ready id m₀ v c m) {n : Width}
    (i : w.image.code.Fetches q (.store r (.base .thread k) n))
    (spare : 8 ≤ k.toNat ∧ k.toNat + n.bytes.toNat ≤ 48 ∨
      52 ≤ k.toNat ∧ k.toNat + n.bytes.toNat ≤ 56)
    (next : ∀ m', a.Ready id m₀ v c m' →
      m.Changed m' (a.thread.toNat + k.toNat) (a.thread.toNat + k.toNat + n.bytes.toNat) →
      (n = .double → load m'.bytes (a.thread.toNat + k.toNat) 8 = c.reg r) →
      Vm.Arrives P turns (w.moved (q + 4) c m')) : Vm.Arrives P (turns + 1) (w.moved q c m) := by
  obtain ⟨address, ok⟩ := h.threadField (k := k) (n := n.bytes) (by omega)
  have changed := Guarded.changed_put m (a.thread + k) n.bytes (c.reg r)
  rw [address] at changed
  refine .storeAt h.registers.thread i ok <|
    next _ (h.changed changed (by unfold Spare; omega)) changed ?_
  rintro rfl
  rw [← address]
  exact Guarded.load_put ok

/-- A field of the thread's block is loaded. -/
theorem runThreadLoad (h : a.Ready id m₀ v c m) {n : Width} {x : UInt64}
    (i : w.image.code.Fetches q (.load r (.base .thread k) n false)) (below : k.toNat ≤ 0x800)
    (holds : load m.bytes (a.thread.toNat + k.toNat) n.bytes.toNat = x)
    (next : Vm.Arrives P turns (w.moved (q + 4) (c.setReg r x) m)) :
    Vm.Arrives P (turns + 1) (w.moved q c m) := by
  have width : n.bytes.toNat ≤ 8 := by cases n <;> decide
  obtain ⟨address, ok⟩ := h.threadField (k := k) (n := n.bytes) (by omega)
  exact .loadAt h.registers.thread i address ok holds next

/-- A word of the thread that is zero takes the code past what is done otherwise. -/
theorem runThreadSkip (h : a.Ready id m₀ v c m) {n : Width} {t : UInt64}
    (i : w.image.code.Fetches q (.load r (.base .thread k) n false))
    (j : w.image.code.Fetches (q + 4) (.branchZero r t)) (below : k.toNat ≤ 0x800)
    (real : r ≠ .zero) (none : load m.bytes (a.thread.toNat + k.toNat) n.bytes.toNat = 0)
    (next : Vm.Arrives P turns (w.moved t (c.setReg r 0) m)) :
    Vm.Arrives P (turns + 2) (w.moved q c m) := by
  refine h.runThreadLoad i below none (.branchZero j (fun _ => next) fun some => ?_)
  rw [Cpu.reg_setReg_self _ _ real] at some
  exact absurd rfl some

/-- A field of the method's record is loaded. -/
theorem runMethodLoad (h : a.Ready id m₀ v c m) {n : Width} {x : UInt64}
    (i : w.image.code.Fetches q (.load r (.base .method k) n false))
    (below : k.toNat + n.bytes.toNat ≤ 48)
    (holds : load m.bytes (a.method.toNat + k.toNat) n.bytes.toNat = x)
    (next : Vm.Arrives P turns (w.moved (q + 4) (c.setReg r x) m)) :
    Vm.Arrives P (turns + 1) (w.moved q c m) := by
  obtain ⟨address, ok⟩ := h.methodField (k := k) (n := n.bytes) below
  exact .loadAt h.registers.method i address ok holds next

/-- A word below the frame pointer is loaded. -/
theorem runFrameLoad (h : a.Ready id m₀ v c m) {x : UInt64}
    (i : w.image.code.Fetches q (.load r (.base .frame (-k)) .double false))
    (hk : k.toNat ≤ 64) (pos : 8 ≤ k.toNat)
    (holds : load m.bytes (a.frame.toNat - k.toNat) 8 = x)
    (next : Vm.Arrives P turns (w.moved (q + 4) (c.setReg r x) m)) :
    Vm.Arrives P (turns + 1) (w.moved q c m) := by
  obtain ⟨address, ok⟩ := h.frameSlot hk pos
  exact .loadAt h.registers.frame i address ok holds next

end
end Ready
end NativeCall
end TemplateVm
