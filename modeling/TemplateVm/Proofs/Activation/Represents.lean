import TemplateVm.Proofs.Guest.Semantics
import TemplateVm.Proofs.Guest.State
import TemplateVm.Proofs.Machine.Steps
import TemplateVm.Vm.State

set_option autoImplicit false

/-!
# How the machine represents an activation

A value lies in memory with as many bytes as its type has, and a held value is in the register of
its state. An int that is held is sign-extended; a float may have anything in the high half.

`Stands` says that registers and memory stand for the variables, the operands and the heap of a
guest method, with all operands in memory; `Represents` allows the topmost one to be held. Each part
says which range of memory it speaks about, so that a write elsewhere keeps it.
-/
namespace TemplateVm

open Memory (Guarded)
open Guest (Cell)

/-! ## Cells -/

namespace Guest.Cell

/-- Bytes of a cell. -/
def width : Cell → Nat
  | byte _ | boolean _ => 1
  | char _ | short _ => 2
  | int _ | float _ => 4
  | long _ | double _ | object _ => 8

/-- The number that the bytes of a cell make. -/
def bits : Cell → UInt64
  | byte n => n.toUInt8.toUInt64
  | boolean n => n.toUInt64
  | char unit => unit.toUInt64
  | short n => n.toUInt16.toUInt64
  | int n => n.toUInt32.toUInt64
  | long n => n.toUInt64
  | float bits => bits.toUInt64
  | double bits => bits
  | object reference => reference

/-- The bytes at the address make the cell. -/
def In (m : Guarded) (a : Nat) (cell : Cell) : Prop := Memory.load m.bytes a cell.width = cell.bits

theorem width_le (cell : Cell) : cell.width ≤ 8 := by cases cell <;> simp [width]

theorem In.agrees {m m' : Guarded} {a lo hi : Nat} {cell : Cell} (h : cell.In m a)
    (ha : m.Agrees m' lo hi) (h₁ : lo ≤ a) (h₂ : a + cell.width ≤ hi) : cell.In m' a :=
  (ha.load h₁ h₂).trans h

end Guest.Cell

/-! ## Operands and variables -/

namespace Value

/-- The words at the address make the value. Two words have the value in the lower one. -/
def In (m : Guarded) (a : Nat) : Value → Prop
  | .int n => Memory.load m.bytes a 4 = n.toUInt32.toUInt64
  | .float bits => Memory.load m.bytes a 4 = bits.toUInt64
  | .long n => Memory.load m.bytes a 8 = n.toUInt64
  | .double bits => Memory.load m.bytes a 8 = bits
  | .object reference => Memory.load m.bytes a 8 = reference
  | _ => False

/-- The registers hold the value in the given state. -/
def Held (c : Cpu) : TopOfStack → Value → Prop
  | .byte, .int n | .boolean, .int n | .char, .int n | .short, .int n | .int, .int n =>
    c.reg .x0 = n.toInt64.toUInt64
  | .long, .long n => c.reg .x0 = n.toUInt64
  | .float, .float bits => (c.float .v0).toUInt32 = bits
  | .double, .double bits => c.float .v0 = bits
  | .object, .object reference => c.reg .x0 = reference
  | _, _ => False

variable {m m' : Guarded} {a lo hi : Nat} {v : Value} {c c' : Cpu} {tos : TopOfStack}

theorem In.words_pos (h : v.In m a) : 0 < v.words := by
  cases v <;> first | exact h.elim | simp [words, type, TypeTag.words]

theorem In.agrees (h : v.In m a) (ha : m.Agrees m' lo hi) (h₁ : lo ≤ a)
    (h₂ : a + 8 * v.words ≤ hi) : v.In m' a := by
  have positive := h.words_pos
  cases v with
  | int n => exact (ha.load h₁ (by omega)).trans h
  | float bits => exact (ha.load h₁ (by omega)).trans h
  | long n => exact (ha.load h₁ (by omega)).trans h
  | double bits => exact (ha.load h₁ (by omega)).trans h
  | object reference => exact (ha.load h₁ (by omega)).trans h
  | _ => exact h.elim

theorem Held.mono (h : v.Held c tos) (hx : c'.reg .x0 = c.reg .x0)
    (hv : c'.float .v0 = c.float .v0) : v.Held c' tos := by
  unfold Held at h ⊢
  rw [hx, hv]
  exact h

end Value

/-! ## Sign and zero extension -/

theorem toUInt32_toInt64 (n : Int32) : n.toInt64.toUInt64.toUInt32 = n.toUInt32 := by
  refine UInt32.toBitVec_inj.mp ?_
  ext i hi
  simp [BitVec.getLsbD_signExtend, hi]
  omega

theorem signWord_of_low {x : UInt64} {n : Int32} (h : x.toUInt32 = n.toUInt32) :
    Extension.signWord.apply x = n.toInt64.toUInt64 := by
  simp [Extension.apply, h]

theorem toUInt32_toUInt64 (n : Int64) : n.toUInt64.toUInt32 = n.toInt32.toUInt32 := by
  refine UInt32.toBitVec_inj.mp ?_
  exact (BitVec.signExtend_eq_setWidth_of_le n.toBitVec (by decide)).symm

theorem signExtend_word (n : Int32) :
    Width.word.signExtend n.toUInt32.toUInt64 = n.toInt64.toUInt64 :=
  signWord_of_low (by simp)

/-! ## Arithmetic on the low halves -/

section
variable (a b : Int32)

theorem signWord_self : Extension.signWord.apply a.toInt64.toUInt64 = a.toInt64.toUInt64 :=
  signWord_of_low (toUInt32_toInt64 a)

theorem signWord_add :
    Extension.signWord.apply (a.toInt64.toUInt64 + b.toInt64.toUInt64) =
      (a + b).toInt64.toUInt64 := by
  refine signWord_of_low ?_
  rw [UInt64.toUInt32_add, toUInt32_toInt64, toUInt32_toInt64, Int32.toUInt32_add]

theorem signWord_sub :
    Extension.signWord.apply (a.toInt64.toUInt64 - b.toInt64.toUInt64) =
      (a - b).toInt64.toUInt64 := by
  refine signWord_of_low ?_
  rw [UInt64.toUInt32_sub, toUInt32_toInt64, toUInt32_toInt64, Int32.toUInt32_sub]

theorem signWord_mul :
    Extension.signWord.apply (a.toInt64.toUInt64 * b.toInt64.toUInt64) =
      (a * b).toInt64.toUInt64 := by
  refine signWord_of_low ?_
  rw [UInt64.toUInt32_mul, toUInt32_toInt64, toUInt32_toInt64, Int32.toUInt32_mul]

theorem signWord_neg :
    Extension.signWord.apply (0 - a.toInt64.toUInt64) = (-a).toInt64.toUInt64 := by
  refine signWord_of_low ?_
  rw [UInt64.zero_sub, UInt64.toUInt32_neg, toUInt32_toInt64, Int32.toUInt32_neg]

/-- The quotient is exact in 64 bits, and that of the least int and -1 wraps when it is narrowed. -/
theorem signWord_div :
    Extension.signWord.apply
        (a.toInt64.toUInt64.toInt64 / b.toInt64.toUInt64.toInt64).toUInt64 =
      (a / b).toInt64.toUInt64 := by
  have exact : (a.toInt64 / b.toInt64).toInt = a.toInt.tdiv b.toInt := by
    rw [Int64.toInt_div_of_ne_left _ _ a.toInt64_ne_minValue, Int32.toInt_toInt64,
      Int32.toInt_toInt64]
  have narrow : (a.toInt64 / b.toInt64).toInt32 = a / b := by
    refine Int32.toInt_inj.mp ?_
    rw [Int64.toInt_toInt32, exact, Int32.toInt_div]
  refine signWord_of_low ?_
  rw [← narrow, ← toUInt32_toUInt64]
  rfl

end

/-! ## Activations -/

open Memory (load)
open Guest

/-- The places of an activation. -/
structure Activation where
  thread : UInt64
  /-- Where the heap begins, and the records of classes and methods end. -/
  heap : UInt64
  method : UInt64
  code : UInt64
  cache : UInt64
  frame : UInt64
  /-- Where the operands end. -/
  top : UInt64
  /-- The first local variable. -/
  locals : UInt64
  sp : UInt64
  /-- The lowest address of the stack that the activation can use. -/
  low : Nat

/-- Code for the settings pushes words below the stack pointer of the machine. -/
def Settings.usesStack (s : Settings) : Bool :=
  s.traceBytecodes || s.verifyReferences || s.markBarrier

namespace Activation

/-- The parts lie one above the other, and nothing in them is guarded. -/
structure Fits (a : Activation) (maxLocals maxStack : Nat) (m : Guarded) : Prop where
  records : 0x20000 ≤ a.heap.toNat
  heap : a.heap.toNat ≤ a.thread.toNat
  thread : a.thread.toNat + 0x1000 ≤ a.low
  operands : a.low + 8 * maxStack ≤ a.top.toNat
  top : a.top.toNat + 64 ≤ a.frame.toNat
  frame : a.frame.toNat + 8 * maxLocals ≤ a.locals.toNat + 8
  locals : a.locals.toNat + 8 < 2 ^ 64
  clear : m.Clear 0x1000 (a.thread.toNat + 0x1000)
  clearStack : m.Clear a.low (a.locals.toNat + 8)

/-- Code that pushes words below the stack pointer of the machine has its place there. -/
def Roomy (a : Activation) (s : Settings) (maxStack : Nat) : Prop :=
  s.usesStack = true → a.low + 32 ≤ a.sp.toNat ∧ a.sp.toNat + 8 * maxStack ≤ a.top.toNat

/-- The registers that templates rely on. -/
structure Registers (a : Activation) (bcp operands : UInt64) (c : Cpu) : Prop where
  thread : c.reg .thread = a.thread
  frame : c.reg .frame = a.frame
  locals : c.reg .locals = a.locals
  cache : c.reg .cache = a.cache
  dispatch : c.reg .dispatch = Place.activeTable
  sp : c.reg .sp = a.sp
  bytecode : c.reg .bytecode = bcp
  operands : c.reg .operands = operands

/-- Where the cache entry of a constant begins. -/
def entry (a : Activation) (index : Nat) : Nat := a.cache.toNat + 16 + 32 * index

/-- The entry of an operation's constant is resolved for it. -/
def Linked (b : Program) (m : Guarded) (e : Nat) (op : Bytecode.Operation) : Prop :=
  match op.opcode with
  | .getfield => ∀ slot, b.field? op.operand.toNat = some slot →
    load m.bytes (e + 2) 1 = op.opcode.byte.toUInt64 ∧ load m.bytes (e + 16) 8 = slot.offset ∧
      load m.bytes (e + 24) 8 = packFlags 0 (.ofType slot.type)
  | .putfield => ∀ slot, b.field? op.operand.toNat = some slot →
    load m.bytes (e + 3) 1 = op.opcode.byte.toUInt64 ∧ load m.bytes (e + 16) 8 = slot.offset ∧
      load m.bytes (e + 24) 8 = packFlags 0 (.ofType slot.type)
  | .checkcast => ∀ id, b.class? op.operand.toNat = some id →
    load m.bytes (e + 2) 1 = op.opcode.byte.toUInt64 ∧
      load m.bytes (e + 8) 8 = (b.classes.get id).address
  | _ => True

/-- The class has a record that leads to its superclass. -/
structure Recorded (a : Activation) (t : ClassTable) (m : Guarded) (id : ClassId) : Prop where
  above : 0x20000 ≤ (t.get id).address.toNat
  below : (t.get id).address.toNat + 8 ≤ a.heap.toNat
  super : ∀ super, (t.get id).superId = some super →
    load m.bytes (t.get id).address.toNat 8 = (t.get super).address

/-- Dispatch table, code, cache and class records are as loading and linking leave them. -/
structure Loaded (a : Activation) (i : Image) (b : Program) (m : Guarded) : Prop where
  table : ∀ (tos : TopOfStack) (o : Opcode),
    load m.bytes (Place.dispatchSlot Place.activeTable tos o.byte).toNat 8 =
      i.normalTable.get tos o.byte
  code : ∃ body, Bytecode.toNativeOrder b.code = .ok body ∧
    a.code.toNat + body.length ≤ a.heap.toNat ∧
    ∀ k byte, body[k]? = some byte → Memory.byteAt m.bytes (a.code.toNat + k) = byte
  codeAbove : 0x20000 ≤ a.code.toNat
  cacheAbove : 0x20000 ≤ a.cache.toNat
  linked : ∀ op ∈ Bytecode.decode b.code, op.opcode.isLinked = true →
    a.entry op.operand.toNat + 32 ≤ a.heap.toNat ∧ Linked b m (a.entry op.operand.toNat) op
  classes : ∀ id < b.classes.size, a.Recorded b.classes m id

/-- No exception is on its way and no frame is to be popped. -/
structure Idle (a : Activation) (m : Guarded) : Prop where
  pending : load m.bytes a.thread.toNat 8 = 0
  pop : (load m.bytes (a.thread.toNat + 48) 4) &&& 1 = 0

/-- The words of the frame about the method. -/
structure Framed (a : Activation) (m : Guarded) : Prop where
  method : load m.bytes (a.frame.toNat - 24) 8 = a.method
  cache : load m.bytes (a.frame.toNat - 40) 8 = a.cache
  locals : load m.bytes (a.frame.toNat - 48) 8 = a.locals
  top : load m.bytes (a.frame.toNat - 64) 8 = a.top

/-- The variables are in their words, each below the one before. -/
def HoldsLocals (a : Activation) (maxLocals : Nat) (m : Guarded) (l : Locals) : Prop :=
  ∀ n v, l n = some v → n + v.words ≤ maxLocals ∧
    v.In m (a.locals.toNat + 8 - 8 * (n + v.words))

end Activation

/-- The operands are in memory from the address on, the topmost one first. -/
def HoldsStack (m : Guarded) : Nat → List Value → Prop
  | _, [] => True
  | a, v :: rest => v.In m a ∧ HoldsStack m (a + 8 * v.words) rest

namespace Guest.Object

/-- Bytes of an object. -/
def size (o : Object) : Nat :=
  match o.body with
  | .fields cells => 16 + 8 * cells.length
  | .elements type cells => 24 + type.elementSize * cells.length

/-- The memory at the reference stands for the object. -/
def In (m : Guarded) (t : ClassTable) (r : Nat) (o : Object) : Prop :=
  load m.bytes (r + 8) 8 = (t.get o.classId).address ∧
  match o.body with
  | .fields cells => ∀ (k : Nat) (cell : Cell), cells[k]? = some cell →
    cell.In m (r + 16 + 8 * k)
  | .elements type cells => cells.length < 2 ^ 31 ∧
    load m.bytes (r + 16) 4 = cells.length.toUInt64 ∧
    ∀ (k : Nat) (cell : Cell), cells[k]? = some cell → cell.width = type.elementSize ∧
      cell.In m (r + 24 + type.elementSize * k)

end Guest.Object

namespace Activation

/-- The objects of the heap are in memory, each in a block of its own. -/
structure HoldsHeap (a : Activation) (t : ClassTable) (m : Guarded) (h : Heap) : Prop where
  holds : ∀ r o, h r = some o → o.In m t r.toNat
  known : ∀ r o, h r = some o → o.classId < t.size
  above : ∀ r o, h r = some o → a.heap.toNat ≤ r.toNat
  below : ∀ r o, h r = some o → r.toNat + o.size ≤ a.thread.toNat
  apart : ∀ r o r' o', h r = some o → h r' = some o' → r ≠ r' →
    r.toNat + o.size ≤ r'.toNat ∨ r'.toNat + o'.size ≤ r.toNat

/-- The machine has the classes, the thread and the objects of the program. -/
structure Inhabits (a : Activation) (b : Program) (h : Heap) (vm : Vm) : Prop where
  thread : vm.map.thread = a.thread
  classes : vm.world.classes = b.classes
  method : (b.classes.methodAt? a.method).isSome
  objects : ∀ r o, h r = some o → vm.world.store.heap.isObject r = true
  slots : ∀ id k slot, (b.classes.get id).fields[k]? = some slot → slot.offset.toNat = 16 + 8 * k

end Activation

/-- The machine stands for the contents, with all operands in memory from `operands` on. -/
structure Stands (a : Activation) (b : Program) (bcp operands : UInt64) (x : Contents) (v : Vm)
    (c : Cpu) (m : Guarded) : Prop where
  registers : a.Registers bcp operands c
  fits : a.Fits b.maxLocals b.maxStack m
  loaded : a.Loaded v.image b m
  idle : a.Idle m
  framed : a.Framed m
  locals : a.HoldsLocals b.maxLocals m x.locals
  stack : HoldsStack m operands.toNat x.stack
  top : operands.toNat + 8 * depth x.stack = a.top.toNat
  bounded : depth x.stack ≤ b.maxStack
  heap : a.HoldsHeap b.classes m x.heap
  inhabits : a.Inhabits b x.heap v

/-- The operands in memory, without the one that is held. -/
def Unheld (c : Cpu) (tos : TopOfStack) (stack rest : List Value) : Prop :=
  match tos with
  | .none => rest = stack
  | tos => ∃ v, stack = v :: rest ∧ v.Held c tos

theorem Unheld.of_held {c : Cpu} {tos : TopOfStack} {stack rest : List Value} {w : Value}
    (hx : stack = w :: rest) (held : w.Held c tos) : Unheld c tos stack rest := by
  cases tos with
  | none => cases w <;> exact held.elim
  | _ => exact ⟨w, hx, held⟩

theorem Unheld.mono {c c' : Cpu} {tos : TopOfStack} {stack rest : List Value}
    (h : Unheld c tos stack rest) (hx : c'.reg .x0 = c.reg .x0) (hv : c'.float .v0 = c.float .v0) :
    Unheld c' tos stack rest := by
  cases tos with
  | none => exact h
  | _ =>
    obtain ⟨w, hs, held⟩ := h
    exact ⟨w, hs, held.mono hx hv⟩

/-- The machine stands for the contents, with the topmost operand held in the given state. -/
def Represents (a : Activation) (b : Program) (tos : TopOfStack) (bcp : UInt64) (x : Contents)
    (v : Vm) (c : Cpu) (m : Guarded) : Prop :=
  depth x.stack ≤ b.maxStack ∧ ∃ rest operands, Unheld c tos x.stack rest ∧
    Stands a b bcp operands { x with stack := rest } v c m

end TemplateVm
