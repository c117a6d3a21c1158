import TemplateVm.Bytecode.Stream
import TemplateVm.Class.Table
import TemplateVm.Guest.Exception
import TemplateVm.Memory.Heap
import TemplateVm.Records

set_option autoImplicit false

/-!
# Loading classes

A class that is loaded gets records in the metaspace, which generated code reads, and an object of
the heap that stands for it. Everything that can be checked without memory is checked before the
first record is written.
-/
namespace TemplateVm

open Memory (Guarded Store)

/-- All that guest code can reach: memory with its heap, and the loaded classes. -/
structure World where
  store : Store
  classes : ClassTable

instance : Inhabited World := ⟨⟨default, default⟩⟩

namespace World

abbrev Action := EStateM Failure World

@[inline] def onStore {α : Type} (action : Store.Action α) : Action α :=
  zoom World.store (fun store w => { w with store }) action

@[inline] def onMemory {α : Type} (action : Guarded.Action α) : Action α :=
  onStore (Store.onMemory action)

def modifyClasses (f : ClassTable → ClassTable) : Action Unit :=
  modify fun w => { w with classes := f w.classes }

/-- A block of the metaspace. -/
def reserve (size : UInt64) : Action UInt64 := do
  let r := (← get).classes.metaspace
  match r.allocate? size 8 with
  | some (a, metaspace) =>
    modifyClasses fun t => { t with metaspace }
    pure a
  | none =>
    throw (.internal
      s!"metaspace exhausted: {r.used.toNat} of {r.capacity.toNat} bytes used")

def require (name : String) : Action ClassId := do
  match (← get).classes.find? name with
  | some id => pure id
  | none => throw (.linkage s!"class {name} is not loaded")

def orInvalid {α : Type} : Except ClassDefect α → Action α
  | .ok a => pure a
  | .error defect => throw (.invalidClass defect.message)

/-- Every class but the root has a superclass. -/
def superOf (c : ClassDefinition) : Action (Option ClassId) :=
  match c.superName with
  | some name => some <$> require name
  | none => if c.name = KnownClass.object then pure none else some <$> require KnownClass.object

/-- Slots for declared fields behind those of `inherited`. -/
def layOut (inherited : List FieldSlot) (declared : List FieldDefinition) :
    Except ClassDefect (List FieldSlot) := do
  let own ← declared.zipIdx.mapM fun (f, i) => do
    let type ← fieldType f.descriptor
    let slot := (inherited.length + i).toUInt64
    pure ⟨f.name, f.descriptor, type, Memory.ObjectShape.fields + slot * Memory.ObjectShape.slot⟩
  pure (inherited ++ own)

/-- Writes the record of a class. -/
def writeClass (superAddress : UInt64) (slots id : Nat) : Action UInt64 := do
  let a ← reserve ClassRecord.size
  onMemory do
    Guarded.write (a + ClassRecord.super) 8 superAddress
    Guarded.write (a + ClassRecord.instanceSlots) 4 slots.toUInt64
    Guarded.write (a + ClassRecord.id) 4 id.toUInt64
  pure a

/-- Writes the records of a constant pool and of its cache, in which nothing is resolved yet. -/
def writePool (holder : UInt64) (length : Nat) : Action (UInt64 × UInt64) := do
  let n := length.toUInt64
  let pool ← reserve PoolRecord.size
  let cache ← reserve (CacheRecord.entryField n 0)
  onMemory do
    Guarded.write (pool + PoolRecord.holder) 8 holder
    Guarded.write (pool + PoolRecord.cache) 8 cache
    Guarded.write (pool + PoolRecord.length) 8 n
    Guarded.write cache 8 pool
    Guarded.write (cache + 8) 8 n
    (List.range length).forM fun i =>
      Guarded.write (cache + CacheRecord.entryField i.toUInt64 CacheRecord.index) 4 i.toUInt64
  pure (pool, cache)

/-- Makes the object that stands for a class, once such objects have a class. -/
def makeClassObject (id : ClassId) : Action Unit := do
  let t := (← get).classes
  let c := t.get id
  match t.find? KnownClass.classOfClasses with
  | none => pure ()
  | some classId =>
    if c.classObject ≠ 0 then pure ()
    else
      let metaclass := t.get classId
      let classObject ← onStore
        (Store.allocateInstance metaclass.address metaclass.fields.length.toUInt64)
      onMemory (Guarded.write (c.address + ClassRecord.classObject) 8 classObject)
      modifyClasses fun t =>
        { t with classes := t.classes.modify id fun c => { c with classObject } }

/-- Writes the constant part of a method, with its code. -/
def writeConstMethod (pool : UInt64) (parameters maxLocals maxStack : UInt16) (code : List UInt8) :
    Action UInt64 := do
  let a ← reserve (ConstMethodRecord.code + (max code.length 1).toUInt64)
  onMemory do
    Guarded.write (a + ConstMethodRecord.constants) 8 pool
    Guarded.write (a + ConstMethodRecord.parameterWords) 2 parameters.toUInt64
    Guarded.write (a + ConstMethodRecord.maxLocals) 2 maxLocals.toUInt64
    Guarded.write (a + ConstMethodRecord.maxStack) 2 maxStack.toUInt64
    Guarded.write (a + ConstMethodRecord.codeSize) 2 code.length.toUInt64
    Guarded.writeBytes (a + ConstMethodRecord.code) code
  pure a

/-- Adds a method to a loaded class. Parameters are locals, however few locals are asked for. -/
def loadMethod (holder : ClassId) (m : MethodDefinition) : Action MethodId := do
  let descriptor ← orInvalid (MethodDescriptor.ofText m.descriptor)
  let parameterWords ← orInvalid m.parameterWords
  let t := (← get).classes
  let c := t.get holder
  let kind := EntryKind.ofMethod c.name m t.policy
  let code ← match Bytecode.toNativeOrder m.code with
    | .ok code => pure code
    | .error truncated => throw (.invalidClass truncated.message)
  let parameters := parameterWords.toUInt16
  let maxLocals := max m.maxLocals parameters
  let constMethod ← writeConstMethod c.poolAddress parameters maxLocals m.maxStack code
  let id := t.methods.size
  let address ← reserve MethodRecord.size
  onMemory do
    Guarded.write (address + MethodRecord.constMethod) 8 constMethod
    Guarded.write (address + MethodRecord.accessFlags) 4 m.access.bits.toUInt64
    Guarded.write (address + MethodRecord.fromInterpreted) 8 (t.entries.getD kind.index 0)
    Guarded.write (address + MethodRecord.id) 4 id.toUInt64
  modifyClasses fun t => { t with
    methods := t.methods.push
      { holder, name := m.name, descriptor, access := m.access, kind, address
        codeBase := constMethod + ConstMethodRecord.code, codeLength := code.length
        parameterWords, handlers := m.handlers }
    classes := t.classes.modify holder fun c => { c with methods := c.methods ++ [id] } }
  pure id

/-- Loads a class. The class is known from the moment its own records are written; its object or a
    method that fails after that leaves it known. -/
def load (c : ClassDefinition) : Action ClassId := do
  orInvalid c.validate
  let t := (← get).classes
  if (t.find? c.name).isSome then throw (.invalidClass (c.name ++ " is already loaded"))
  let superId ← superOf c
  let super := superId.map t.get
  let fields ← orInvalid (layOut ((super.map (·.fields)).getD []) c.fields)
  let id := t.size
  let address ← writeClass ((super.map (·.address)).getD 0) fields.length id
  let (poolAddress, cacheAddress) ← writePool address c.pool.length
  modifyClasses fun t => { t with
    classes := t.classes.push
      { name := c.name, address, superId, fields
        pool := c.pool.toArray, poolAddress, cacheAddress } }
  makeClassObject id
  c.methods.forM fun m => do let _ ← loadMethod id m
  pure id

/-- Instances of a class, with cleared fields. -/
def newInstance (id : ClassId) : Action UInt64 := do
  let c := (← get).classes.get id
  onStore (Store.allocateInstance c.address c.fields.length.toUInt64)

/-- The class of an object. -/
def classOf (object : UInt64) : Action ClassId := do
  let address ← onMemory (Guarded.readA (object + Memory.ObjectShape.classRecord) 8)
  match (← get).classes.classAt? address with
  | some id => pure id
  | none =>
    throw (.internal
      s!"object {Text.hex object.toNat} has bad klass {Text.hex address.toNat}")

/-- Classes below the root that are loaded first, each with its superclass. -/
def firstClasses : List (String × String) :=
  [(KnownClass.throwable, KnownClass.object), ("java/lang/Exception", KnownClass.throwable),
    ("java/lang/Error", KnownClass.throwable),
    ("java/lang/RuntimeException", "java/lang/Exception"),
    ("java/lang/VirtualMachineError", "java/lang/Error"),
    ("java/lang/LinkageError", "java/lang/Error"),
    ("java/lang/IndexOutOfBoundsException", "java/lang/RuntimeException")]

/-- Built-in exceptions in an order in which every superclass comes first. -/
def exceptionOrder : List BuiltinException :=
  let isBuiltin (name : String) : Bool := BuiltinException.all.any (·.className == name)
  let (later, first) := BuiltinException.all.partition (isBuiltin ·.superclassName)
  first ++ later

/-- The class of objects that hold a reference, with its getter. -/
def referenceClass : ClassDefinition :=
  { name := KnownClass.reference
    fields := [⟨"referent", "Ljava/lang/Object;"⟩]
    pool := [.fieldRef ⟨KnownClass.reference, "referent", "Ljava/lang/Object;"⟩]
    methods := [
      { name := "get", descriptor := "()Ljava/lang/Object;", access := ⟨Access.publicBit⟩
        code := [Opcode.aload0.byte, Opcode.getfield.byte, 0, 0, Opcode.areturn.byte] }] }

/-- The class of method handles; its one field holds the address of the target. -/
def methodHandleClass : ClassDefinition :=
  { name := KnownClass.methodHandle, fields := [⟨"vmtarget", "J"⟩] }

/-- Element types of the array classes. -/
def elementTypes : List TypeTag :=
  [.boolean, .char, .float, .double, .byte, .short, .int, .long]

/-- Loads what every program needs. The first two classes get their objects when both are there. -/
def bootstrap : Action Unit := do
  let root ← load { name := KnownClass.object }
  let classId ← load { name := KnownClass.classOfClasses }
  makeClassObject root
  makeClassObject classId
  firstClasses.forM fun (name, superName) => do
    let _ ← load { name, superName := some superName }
  exceptionOrder.forM fun e => do
    let _ ← load { name := e.className, superName := some e.superclassName }
  let _ ← load referenceClass
  let _ ← load methodHandleClass
  elementTypes.forM fun element => do
    let id ← load { name := element.arrayClassName }
    modifyClasses fun t =>
      { t with classes := t.classes.modify id fun c => { c with element := some element } }

/-- The method through which handles are invoked with a descriptor, made when it is first needed. -/
def handleInvoker (name descriptor : String) : Action MethodId := do
  let holder ← require KnownClass.methodHandle
  match (← get).classes.declared? holder name (some descriptor) with
  | some id => pure id
  | none =>
    if name = "invokeExact" ∨ name = "invoke" then
      loadMethod holder
        { name, descriptor, access := ⟨Access.publicBit ||| Access.finalBit ||| Access.nativeBit⟩ }
    else throw (.linkage (MemberRef.text ⟨KnownClass.methodHandle, name, descriptor⟩))

end World
end TemplateVm
