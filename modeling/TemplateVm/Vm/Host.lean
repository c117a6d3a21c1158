import TemplateVm.Codegen.Entry.ByKind
import TemplateVm.Vm.Call

set_option autoImplicit false

/-!
# The view of the host

What the embedder of the machine can do besides calling methods: make and read objects, and read the
counters of the machine.
-/
namespace TemplateVm.Vm

open Memory (Guarded)

def setDebugger (debugger : Option Debugger) : Action Unit := do
  modify fun vm => { vm with hooks := { vm.hooks with debugger } }
  onThread (·.setInterpretOnly debugger.isSome)

/-- References that are overwritten are queued while marking is active. -/
def setMarking (active : Bool) : Action Unit := do
  modify fun vm => { vm with marks := vm.marks.setActive active }
  onMemory (Guarded.write Place.markingActive 1 active.toUInt64)

/-- The references that were overwritten since the last time. -/
def drainMarks : Action (List UInt64) := modifyGet fun vm =>
  let (references, marks) := vm.marks.drain
  (references, { vm with marks })

def registerNative (method : MemberRef) (address : UInt64) : Action Unit := do
  match (← get).library.register method address with
  | .ok library => modify fun vm => { vm with library }
  | .error failure => throw failure

def isLocked (vm : Vm) (object : UInt64) : Bool := (vm.lock? object).isSome

/-- An object of a class that must be loaded. -/
def newKnown (className : String) : Action UInt64 := onWorld do
  World.newInstance (← World.require className)

/-- An object of the class with one field set. -/
def newHolder (className : String) (word : UInt64) : Action UInt64 := do
  let object ← newKnown className
  onMemory (Guarded.write (object + firstField) 8 word)
  pure object

def newReference (referent : UInt64) : Action UInt64 := newHolder KnownClass.reference referent

def newMethodHandle (className name : String) : Action UInt64 := do
  let id ← lookup className name
  newHolder KnownClass.methodHandle ((← classes).method id).address

def newIntArray (values : List Int32) : Action UInt64 := do
  let t ← classes
  let some id := t.arrayOf? .int | throw (.internal "int[] is not loaded")
  let array ← onWorld (World.onStore (Memory.Store.allocateArray (t.get id).address
    (TypeTag.elementSize .int).toUInt64 values.length.toUInt32))
  onMemory (values.zipIdx.forM fun (v, i) =>
    Guarded.write (array + Memory.ObjectShape.arrayBase + i.toUInt64 * 4) 4 v.toUInt32.toUInt64)
  pure array

/-- Appends `n` ints from an address on to those read already, of which the last comes first. -/
def readInts (read : List Int32) (a : UInt64) : Nat → Guarded.Action (List Int32)
  | 0 => pure read.reverse
  | n + 1 => do
    let word ← Guarded.readA a 4
    readInts (word.toUInt32.toInt32 :: read) (a + 4) n

def intArray (array : UInt64) : Action (List Int32) := onMemory do
  let length ← Guarded.readA (array + Memory.ObjectShape.arrayLength) 4
  readInts [] (array + Memory.ObjectShape.arrayBase) length.toNat

def className (object : UInt64) : Action String := do
  let id ← onWorld (World.classOf object)
  pure ((← classes).get id).name

/-- The address of a field of an object. -/
def fieldAddress (object : UInt64) (name descriptor : String) : Action UInt64 := do
  let id ← onWorld (World.classOf object)
  match (← classes).findField? id name descriptor with
  | some slot => pure (object + slot.offset)
  | none => throw (.linkage s!"no field {name}:{descriptor}")

def intField (object : UInt64) (name : String) : Action Int32 := do
  let a ← fieldAddress object name "I"
  return (← onMemory (Guarded.readA a 4)).toUInt32.toInt32

def setIntField (object : UInt64) (name : String) (value : Int32) : Action Unit := do
  let a ← fieldAddress object name "I"
  onMemory (Guarded.write a 4 value.toUInt32.toUInt64)

def objectField (object : UInt64) (name descriptor : String) : Action UInt64 := do
  let a ← fieldAddress object name descriptor
  onMemory (Guarded.readA a 8)

def setObjectField (object : UInt64) (name descriptor : String) (value : UInt64) : Action Unit := do
  let a ← fieldAddress object name descriptor
  onMemory (Guarded.write a 8 value)

/-- How often a method was entered, as far as its entry counts. -/
def invocationCount (id : ClassId) (name : String) : Action UInt32 := do
  let t ← classes
  let some method := t.findMethod? id name none | throw (.linkage ("no method " ++ name))
  let a := (t.method method).address + MethodRecord.invocationCounter
  return (← onMemory (Guarded.readA a 4)).toUInt32

def watch (pc : UInt64) : Action Unit :=
  modify fun vm => { vm with processor := vm.processor.watch pc }

def bytecodeCount : Action UInt64 := onMemory (Guarded.readA Place.bytecodeCounter 8)

/-- The opcodes that were executed, the most frequent first; equal counts go by the byte. -/
def histogram : Action (List (Opcode × UInt64)) := do
  let counts ← onMemory <| Opcode.all.toList.mapM fun o => do
    let count ← Guarded.readA (Place.histogram + o.byte.toUInt64 * 8) 8
    pure (o, count)
  let before (a b : Opcode × UInt64) : Bool :=
    a.2 > b.2 || (a.2 == b.2 && a.1.byte ≤ b.1.byte)
  pure ((counts.filter (·.2 > 0)).mergeSort before)

end TemplateVm.Vm
