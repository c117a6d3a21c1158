import Mathlib.Algebra.GroupWithZero.Nat
import TemplateVm.Class.Table
import TemplateVm.Guest.TopOfStack
import TemplateVm.Guest.Value

set_option autoImplicit false

/-!
# The state of a guest method

What a method of the guest program works on, without machine words: local variables and operands
are values, and the heap maps references to objects with typed contents.
-/
namespace TemplateVm

/-- The state in which a value of this kind is held. -/
def Value.state (v : Value) : TopOfStack := .ofType v.type

/-- Words of a value in local variables and on the operand stack. -/
def Value.words (v : Value) : Nat := v.type.words

namespace Guest

/-- What a field or an element of an array holds. -/
inductive Cell where
  | byte (n : Int8)
  | boolean (n : UInt8)
  | char (unit : UInt16)
  | short (n : Int16)
  | int (n : Int32)
  | long (n : Int64)
  | float (bits : UInt32)
  | double (bits : UInt64)
  | object (reference : UInt64)
  deriving DecidableEq, Inhabited

namespace Cell

def state : Cell → TopOfStack
  | byte _ => .byte | boolean _ => .boolean | char _ => .char | short _ => .short
  | int _ => .int | long _ => .long | float _ => .float | double _ => .double
  | object _ => .object

/-- As an operand, with the sign of signed types and zeros for the others. -/
def value : Cell → Value
  | byte n => .int n.toInt32
  | boolean n => .int n.toUInt32.toInt32
  | char unit => .int unit.toUInt32.toInt32
  | short n => .int n.toInt32
  | int n => .int n
  | long n => .long n
  | float bits => .float bits
  | double bits => .double bits
  | object reference => .object reference

/-- What a field of the given state holds once the value is stored. -/
def ofValue? : TopOfStack → Value → Option Cell
  | .byte, .int n => some (.byte n.toInt8)
  | .boolean, .int n => some (.boolean n.toUInt32.toUInt8)
  | .char, .int n => some (.char n.toUInt32.toUInt16)
  | .short, .int n => some (.short n.toInt16)
  | .int, .int n => some (.int n)
  | .long, .long n => some (.long n)
  | .float, .float bits => some (.float bits)
  | .double, .double bits => some (.double bits)
  | .object, .object reference => some (.object reference)
  | _, _ => none

end Cell

/-- Fields in the order of the slots of the class, or elements of one type. -/
inductive Body where
  | fields (cells : List Cell)
  | elements (type : TypeTag) (cells : List Cell)
  deriving Inhabited

structure Object where
  classId : ClassId
  body : Body
  deriving Inhabited

abbrev Heap := UInt64 → Option Object

/-- The heap with another object at the reference. -/
def Heap.update (h : Heap) (r : UInt64) (o : Object) : Heap :=
  fun r' => if r' = r then some o else h r'

theorem Heap.of_update {h : Heap} {r r' : UInt64} {o o' : Object}
    (there : h.update r o r' = some o') : r' = r ∧ o' = o ∨ r' ≠ r ∧ h r' = some o' := by
  unfold Heap.update at there
  split at there
  · next here => exact .inl ⟨here, (Option.some.inj there).symm⟩
  · next other => exact .inr ⟨other, there⟩

/-- The reference is null or that of an object. -/
def Heap.Knows (h : Heap) (r : UInt64) : Prop := r = 0 ∨ (h r).isSome

/-- What the variables hold; of a value of two words only the first variable counts. -/
abbrev Locals := Nat → Option Value

/-- The variables after an assignment. A value of which one word is overwritten is lost. -/
def Locals.assign (l : Locals) (n : Nat) (v : Value) : Locals := fun i =>
  if i = n then some v
  else if n < i ∧ i < n + v.words then none
  else if i < n ∧ (l i).any (n < i + ·.words) then none
  else l i

structure Contents where
  locals : Locals
  /-- The topmost operand first. -/
  stack : List Value
  heap : Heap

/-- All references are null or those of objects. -/
structure Contents.Closed (x : Contents) : Prop where
  locals : ∀ n r, x.locals n = some (.object r) → x.heap.Knows r
  stack : ∀ r, Value.object r ∈ x.stack → x.heap.Knows r
  fields : ∀ r₀ id cells r, x.heap r₀ = some ⟨id, .fields cells⟩ → Cell.object r ∈ cells →
    x.heap.Knows r

/-- Words of the operands. -/
def depth (stack : List Value) : Nat := (stack.map Value.words).sum

/-- At the beginning of a bytecode. -/
structure State extends Contents where
  bci : Nat

/-- A method of a loaded class, with its body as in the class file. -/
structure Program where
  classes : ClassTable
  holder : ClassId
  code : List UInt8
  maxLocals : Nat
  maxStack : Nat

namespace Program

def entry? (b : Program) (index : Nat) : Option PoolEntry := (b.classes.get b.holder).pool[index]?

/-- The field that a constant stands for. -/
def field? (b : Program) (index : Nat) : Option FieldSlot :=
  match b.entry? index with
  | some (.fieldRef m) =>
    (b.classes.find? m.holder).bind fun id => b.classes.findField? id m.name m.descriptor
  | _ => none

/-- The class that a constant stands for. -/
def class? (b : Program) (index : Nat) : Option ClassId :=
  match b.entry? index with
  | some (.classRef name) => b.classes.find? name
  | _ => none

/-- The place of a field among those of a class. -/
def place? (b : Program) (id : ClassId) (slot : FieldSlot) : Option Nat :=
  (b.classes.get id).fields.idxOf? slot

theorem getElem?_place {b : Program} {id : ClassId} {slot : FieldSlot} {k : Nat}
    (h : b.place? id slot = some k) : (b.classes.get id).fields[k]? = some slot := by
  unfold place? at h
  obtain ⟨inside, here, -⟩ := List.idxOf?_eq_some_iff.mp h
  rw [List.getElem?_eq_getElem inside]
  simpa using here

end Program
end Guest
end TemplateVm
