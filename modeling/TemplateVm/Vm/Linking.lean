import TemplateVm.Vm.Throwing

set_option autoImplicit false

/-!
# Linking

Pool entries are resolved when a bytecode first uses them, and native methods are linked when they
are first called. What is missing is an exception of the guest program.
-/
namespace TemplateVm.Vm

open Memory (Guarded)

/-- The pool index of the bytecode at an address. -/
def poolIndex (o : Opcode) (bcp : UInt64) : Action Nat := do
  let width : UInt64 := if o = .invokedynamic then 4 else 2
  return (← onMemory (Guarded.readA (bcp + 1) width)).toNat

/-- What a pool entry stands for. -/
inductive Resolved where
  | field (slot : FieldSlot)
  | method (m : LoadedMethod)
  | classRecord (address : UInt64)

/-- The loaded class of the name; without it, the exception has been posted. -/
def classOrPost (name : String) : Action (Option ClassId) := do
  match (← classes).find? name with
  | some id => pure (some id)
  | none =>
    post .noClassDefFound (some name)
    pure none

def resolveField (m : MemberRef) : Action (Option Resolved) := do
  let some id ← classOrPost m.holder | pure none
  match (← classes).findField? id m.name m.descriptor with
  | some slot => pure (some (.field slot))
  | none =>
    post .noSuchField (some (m.holder ++ "." ++ m.name))
    pure none

/-- Only static methods can be called. -/
def resolveMethod (m : MemberRef) : Action (Option Resolved) := do
  let some id ← classOrPost m.holder | pure none
  let t ← classes
  match t.findMethod? id m.name (some m.descriptor) with
  | none =>
    post .noSuchMethod (some m.text)
    pure none
  | some target =>
    if (t.method target).access.isStatic then pure (some (.method (t.method target)))
    else
      post .incompatibleClassChange (some ("Expected static method " ++ m.text))
      pure none

def resolveClass (name : String) : Action (Option Resolved) := do
  let some id ← classOrPost name | pure none
  pure (some (.classRecord ((← classes).get id).address))

/-- Each bytecode takes one kind of entry. -/
def resolveEntry (o : Opcode) (bcp : UInt64) (entry : PoolEntry) : Action (Option Resolved) :=
  match o, entry with
  | .getfield, .fieldRef m | .putfield, .fieldRef m => resolveField m
  | .invokestatic, .methodRef m | .invokedynamic, .callSite m => resolveMethod m
  | .newInstance, .classRef name | .checkcast, .classRef name => resolveClass name
  | _, _ => throw (.linkage s!"{o.name} at {Text.hex bcp.toNat} refers to {entry.text}")

/-- Fills in a cache entry; the opcode comes last, for it tells that the rest is there. A field
    that is written is resolved for reading too. -/
def fillEntry (entry : UInt64) (o : Opcode) : Resolved → Guarded.Action Unit
  | .field slot => do
    Guarded.write (entry + CacheRecord.f2) 8 slot.offset
    Guarded.write (entry + CacheRecord.flags) 8 (packFlags 0 (.ofType slot.type))
    Guarded.write (entry + CacheRecord.opcode1) 1 Opcode.getfield.byte.toUInt64
    if o = .putfield then
      Guarded.write (entry + CacheRecord.opcode2) 1 Opcode.putfield.byte.toUInt64
  | .method m => do
    let result := (TopOfStack.ofType m.descriptor.result).ofResult
    Guarded.write (entry + CacheRecord.f1) 8 m.address
    Guarded.write (entry + CacheRecord.flags) 8 (packFlags m.parameterWords.toUInt64 result)
    Guarded.write (entry + CacheRecord.opcode1) 1 o.byte.toUInt64
  | .classRecord address => do
    Guarded.write (entry + CacheRecord.f1) 8 address
    Guarded.write (entry + CacheRecord.opcode1) 1 o.byte.toUInt64

/-- Resolves the pool entry of the current bytecode, of which the opcode is given. -/
def resolve (raw : UInt64) : Action Unit := do
  let some o := Opcode.ofByte? raw.toUInt8
    | throw (.internal s!"resolve of unknown bytecode {Text.hex raw.toNat}")
  let frame ← lastFrame
  let id ← methodOf frame
  let bcp ← onMemory (frame.read Frame.bytecode)
  let index ← poolIndex o bcp
  let t ← classes
  let holder := t.get (t.method id).holder
  let some entry := holder.pool[index]?
    | throw (.linkage s!"{holder.name}: constant pool index {index} out of range")
  match ← resolveEntry o bcp entry with
  | some resolved =>
    let place := holder.cacheAddress + CacheRecord.entryField index.toUInt64 0
    onMemory (fillEntry place o resolved)
  | none => pure ()

def newInstance (address : UInt64) : Action Unit := do
  let some id := (← classes).classAt? address
    | throw (.internal s!"new of bad klass {Text.hex address.toNat}")
  let object ← onWorld (World.newInstance id)
  onThread (·.setVmResult object)

/-- The length is an int; `code` is that of the element type. -/
def newArray (code length : UInt64) : Action Unit := do
  let length := length.toUInt32
  if length.toInt32 < 0 then
    post .negativeArraySize (some (toString length.toInt32.toInt))
  else
    let some element := TypeTag.ofCode? code.toUInt8.toNat
      | throw (.internal s!"newarray of bad type {code.toNat}")
    let t ← classes
    let some id := t.arrayOf? element
      | throw (.internal ("no array class for " ++ element.name))
    let object ← onWorld (World.onStore
      (Memory.Store.allocateArray (t.get id).address element.elementSize.toUInt64 length))
    onThread (·.setVmResult object)

/-- Links a native method with the function registered for it, and with a signature handler. -/
def prepareNativeCall (address : UInt64) : Action Unit := do
  let t ← classes
  let some id := t.methodAt? address
    | throw (.internal s!"native call of bad method {Text.hex address.toNat}")
  let m := t.method id
  let ref := t.member id
  match (← get).library.find? ref with
  | none =>
    post .unsatisfiedLink (some (MemberRef.text { ref with holder := dotted ref.holder }))
  | some function =>
    let handler ← match (← get).image.signatureHandler m.descriptor m.access.isStatic with
      | .ok (handler, image) => do
        modify fun vm => { vm with image }
        pure handler
      | .error failure => throw failure
    let format ← match Native.CallFormat.ofDescriptor m.descriptor with
      | .ok format => pure format
      | .error defect => throw (.nativeBridge defect.message)
    onMemory do
      Guarded.write (address + MethodRecord.nativeFunction) 8 function.address
      Guarded.write (address + MethodRecord.signatureHandler) 8 handler
      Guarded.write (address + MethodRecord.callFormat) 4 format.pack.toUInt64

end TemplateVm.Vm
