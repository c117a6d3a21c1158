import TemplateVm.Bytecode.Stream
import TemplateVm.Proofs.Guest.State

set_option autoImplicit false

/-!
# What bytecodes mean

`step` is the meaning of the bytecodes that stay in one activation and neither allocate nor lock.
It gives nothing where a bytecode raises an exception, and nothing where a method is not type-correct:
where operands have the wrong kinds, or a bound of the method is exceeded.
-/
namespace TemplateVm.Guest

open Bytecode (Operation)

namespace Contents

variable (x : Contents)

def push (v : Value) : Contents := { x with stack := v :: x.stack }

/-! ## Variables -/

/-- Pushes a variable of the given kind. -/
def load (n : Nat) (kind : TopOfStack) : Option Contents :=
  match x.locals n with
  | some v => if v.state = kind then some (x.push v) else none
  | none => none

/-- Pops a value of the given kind into a variable. -/
def store (n : Nat) (kind : TopOfStack) (maxLocals : Nat) : Option Contents :=
  match x.stack with
  | v :: rest =>
    if v.state = kind ∧ n + v.words ≤ maxLocals then
      some { x with stack := rest, locals := x.locals.assign n v }
    else none
  | [] => none

def increment (n : Nat) (by' : Int32) : Option Contents :=
  match x.locals n with
  | some (.int k) => some { x with locals := x.locals.assign n (.int (k + by')) }
  | _ => none

/-! ## Operands -/

def pop : Option Contents :=
  match x.stack with
  | v :: rest => if v.words = 1 then some { x with stack := rest } else none
  | [] => none

def dup : Option Contents :=
  match x.stack with
  | v :: rest => if v.words = 1 then some { x with stack := v :: v :: rest } else none
  | [] => none

/-- Of two ints, the deeper one is the first. -/
def onInts (f : Int32 → Int32 → Int32) : Option Contents :=
  match x.stack with
  | .int b :: .int a :: rest => some { x with stack := .int (f a b) :: rest }
  | _ => none

def onInt (f : Int32 → Value) : Option Contents :=
  match x.stack with
  | .int a :: rest => some { x with stack := f a :: rest }
  | _ => none

def divide : Option Contents :=
  match x.stack with
  | .int b :: .int a :: rest =>
    if b = 0 then none else some { x with stack := .int (a / b) :: rest }
  | _ => none

def addLongs : Option Contents :=
  match x.stack with
  | .long b :: .long a :: rest => some { x with stack := .long (a + b) :: rest }
  | _ => none

def addFloats : Option Contents :=
  match x.stack with
  | .float b :: .float a :: rest =>
    let sum := Float32.ofBits a + Float32.ofBits b
    some { x with stack := .float sum.toBits :: rest }
  | _ => none

def addDoubles : Option Contents :=
  match x.stack with
  | .double b :: .double a :: rest =>
    let sum := Float.ofBits a + Float.ofBits b
    some { x with stack := .double sum.toBits :: rest }
  | _ => none

/-! ## Objects and arrays -/

def getField (b : Program) (slot : FieldSlot) : Option Contents :=
  match x.stack with
  | .object r :: rest =>
    match x.heap r with
    | some ⟨id, .fields cells⟩ =>
      match (b.place? id slot).bind (cells[·]?) with
      | some cell =>
        if cell.state = .ofType slot.type then some { x with stack := cell.value :: rest } else none
      | none => none
    | _ => none
  | _ => none

def putField (b : Program) (slot : FieldSlot) : Option Contents :=
  match x.stack with
  | v :: .object r :: rest =>
    match x.heap r, Cell.ofValue? (.ofType slot.type) v with
    | some ⟨id, .fields cells⟩, some cell =>
      match b.place? id slot with
      | some k =>
        if k < cells.length then
          some { x with stack := rest, heap := x.heap.update r ⟨id, .fields (cells.set k cell)⟩ }
        else none
      | none => none
    | _, _ => none
  | _ => none

def loadElement : Option Contents :=
  match x.stack with
  | .int i :: .object r :: rest =>
    match x.heap r with
    | some ⟨_, .elements .int cells⟩ =>
      if i < 0 then none
      else match cells[i.toInt.toNat]? with
        | some (.int n) => some { x with stack := .int n :: rest }
        | _ => none
    | _ => none
  | _ => none

def storeElement : Option Contents :=
  match x.stack with
  | .int n :: .int i :: .object r :: rest =>
    match x.heap r with
    | some ⟨id, .elements .int cells⟩ =>
      if i < 0 ∨ cells.length ≤ i.toInt.toNat then none
      else
        let cells := cells.set i.toInt.toNat (.int n)
        some { x with stack := rest, heap := x.heap.update r ⟨id, .elements .int cells⟩ }
    | _ => none
  | _ => none

def arrayLength : Option Contents :=
  match x.stack with
  | .object r :: rest =>
    match x.heap r with
    | some ⟨_, .elements _ cells⟩ =>
      some { x with stack := .int (Int32.ofNat cells.length) :: rest }
    | _ => none
  | _ => none

/-- Null passes every cast. -/
def checkCast (b : Program) (target : ClassId) : Option Contents :=
  match x.stack with
  | .object r :: _ =>
    if r = 0 then some x
    else match x.heap r with
      | some o => if b.classes.isSubclass o.classId target then some x else none
      | none => none
  | _ => none

/-! ## Branches -/

/-- The operands are taken; the distance is gone if the condition holds. -/
def branchInt (taken : Int32 → Bool) (distance : Int) : Option (Contents × Option Int) :=
  match x.stack with
  | .int a :: rest => some ({ x with stack := rest }, if taken a then some distance else none)
  | _ => none

def branchInts (taken : Int32 → Int32 → Bool) (distance : Int) : Option (Contents × Option Int) :=
  match x.stack with
  | .int b :: .int a :: rest =>
    some ({ x with stack := rest }, if taken a b then some distance else none)
  | _ => none

def branchNull (onNull : Bool) (distance : Int) : Option (Contents × Option Int) :=
  match x.stack with
  | .object r :: rest =>
    some ({ x with stack := rest }, if decide (r = 0) = onNull then some distance else none)
  | _ => none

end Contents

/-- Goes on with the next bytecode. -/
def falling (x : Option Contents) : Option (Contents × Option Int) := x.map (·, none)

/-- What an operation does, and how far it branches if it does. -/
def execute (b : Program) (op : Operation) (x : Contents) : Option (Contents × Option Int) :=
  let n := op.operand.toNat
  match op.opcode with
  | .nop => falling x
  | .aconstNull => falling (x.push (.object 0))
  | .iconstM1 => falling (x.push (.int (-1)))
  | .iconst0 => falling (x.push (.int 0))
  | .iconst1 => falling (x.push (.int 1))
  | .iconst2 => falling (x.push (.int 2))
  | .iconst3 => falling (x.push (.int 3))
  | .iconst4 => falling (x.push (.int 4))
  | .iconst5 => falling (x.push (.int 5))
  | .lconst0 => falling (x.push (.long 0))
  | .lconst1 => falling (x.push (.long 1))
  | .fconst0 => falling (x.push (.float 0))
  | .fconst1 => falling (x.push (.float 0x3f800000))
  | .fconst2 => falling (x.push (.float 0x40000000))
  | .dconst0 => falling (x.push (.double 0))
  | .dconst1 => falling (x.push (.double 0x3ff0000000000000))
  | .bipush | .sipush => falling (x.push (.int (Int32.ofInt op.operand)))
  | .iload => falling (x.load n .int)
  | .lload => falling (x.load n .long)
  | .fload => falling (x.load n .float)
  | .dload => falling (x.load n .double)
  | .aload => falling (x.load n .object)
  | .iload0 => falling (x.load 0 .int)
  | .iload1 => falling (x.load 1 .int)
  | .iload2 => falling (x.load 2 .int)
  | .iload3 => falling (x.load 3 .int)
  | .aload0 => falling (x.load 0 .object)
  | .aload1 => falling (x.load 1 .object)
  | .aload2 => falling (x.load 2 .object)
  | .aload3 => falling (x.load 3 .object)
  | .istore => falling (x.store n .int b.maxLocals)
  | .lstore => falling (x.store n .long b.maxLocals)
  | .fstore => falling (x.store n .float b.maxLocals)
  | .dstore => falling (x.store n .double b.maxLocals)
  | .astore => falling (x.store n .object b.maxLocals)
  | .istore0 => falling (x.store 0 .int b.maxLocals)
  | .istore1 => falling (x.store 1 .int b.maxLocals)
  | .istore2 => falling (x.store 2 .int b.maxLocals)
  | .istore3 => falling (x.store 3 .int b.maxLocals)
  | .astore0 => falling (x.store 0 .object b.maxLocals)
  | .astore1 => falling (x.store 1 .object b.maxLocals)
  | .astore2 => falling (x.store 2 .object b.maxLocals)
  | .astore3 => falling (x.store 3 .object b.maxLocals)
  | .iinc =>
    falling (x.increment (b.code.getD (op.bci + 1) 0).toNat (Int32.ofInt op.operand))
  | .pop => falling x.pop
  | .dup => falling x.dup
  | .iadd => falling (x.onInts (· + ·))
  | .isub => falling (x.onInts (· - ·))
  | .imul => falling (x.onInts (· * ·))
  | .idiv => falling x.divide
  | .ineg => falling (x.onInt fun a => .int (-a))
  | .i2l => falling (x.onInt fun a => .long a.toInt64)
  | .ladd => falling x.addLongs
  | .fadd => falling x.addFloats
  | .dadd => falling x.addDoubles
  | .ifeq => x.branchInt (· == 0) op.operand
  | .ifne => x.branchInt (· != 0) op.operand
  | .iflt => x.branchInt (· < 0) op.operand
  | .ifge => x.branchInt (0 ≤ ·) op.operand
  | .ifgt => x.branchInt (0 < ·) op.operand
  | .ifle => x.branchInt (· ≤ 0) op.operand
  | .ifIcmpeq => x.branchInts (· == ·) op.operand
  | .ifIcmpne => x.branchInts (· != ·) op.operand
  | .ifIcmplt => x.branchInts (· < ·) op.operand
  | .ifIcmpge => x.branchInts (fun a b => b ≤ a) op.operand
  | .ifIcmpgt => x.branchInts (fun a b => b < a) op.operand
  | .ifIcmple => x.branchInts (· ≤ ·) op.operand
  | .ifnull => x.branchNull true op.operand
  | .ifnonnull => x.branchNull false op.operand
  | .goto => some (x, some op.operand)
  | .getfield => falling ((b.field? n).bind (x.getField b))
  | .putfield => falling ((b.field? n).bind (x.putField b))
  | .iaload => falling x.loadElement
  | .iastore => falling x.storeElement
  | .arraylength => falling x.arrayLength
  | .checkcast => falling ((b.class? n).bind (x.checkCast b))
  | _ => none

/-- The operation that begins at an index of the body. -/
def Program.operation? (b : Program) (bci : Int) : Option Operation :=
  (Bytecode.decode b.code).find? fun op => (op.bci : Int) = bci

/-- Executes the current bytecode. The next one begins an operation too, and the operands never need
    more words than the method asked for. -/
def step (b : Program) (s : State) : Option State := do
  let op ← b.operation? s.bci
  let (x, distance) ← execute b op s.toContents
  let bci := s.bci + distance.getD op.opcode.length
  let next ← b.operation? bci
  if depth x.stack ≤ b.maxStack then some { x with bci := next.bci } else none

/-- Executes so many bytecodes. -/
def steps (b : Program) : Nat → State → Option State
  | 0, s => some s
  | n + 1, s => (step b s).bind (steps b n)

/-- The opcode of the next bytecode. -/
def stepExecuted (b : Program) (s : State) : List Opcode :=
  ((b.operation? s.bci).map (·.opcode)).toList

/-- The opcodes of so many bytecodes, one after the other. -/
def executedIn (b : Program) : Nat → State → List Opcode
  | 0, _ => []
  | n + 1, s => stepExecuted b s ++ (step b s).elim [] (executedIn b n)

/-- Every bytecode of a run has one. -/
theorem length_executedIn {b : Program} {s s' : State} {n : Nat} (run : steps b n s = some s') :
    (executedIn b n s).length = n := by
  induction n generalizing s with
  | zero => rfl
  | succ n ih =>
    obtain ⟨s₁, first, rest⟩ := Option.bind_eq_some_iff.mp run
    obtain ⟨op, current, -⟩ := Option.bind_eq_some_iff.mp first
    rw [executedIn, stepExecuted, current, first, List.length_append]
    exact (congrArg (1 + ·) (ih rest)).trans (Nat.add_comm 1 n)

end TemplateVm.Guest
