import TemplateVm.Class.Definition
import TemplateVm.Memory.Region

set_option autoImplicit false

/-!
# Loaded classes

Classes and methods in the order of loading, with the addresses of their records. A superclass is
always loaded before its subclasses, so that the numbers of a class and its ancestors decrease.
-/
namespace TemplateVm

/-- Classes and methods are numbered in the order of loading. -/
abbrev ClassId := Nat
abbrev MethodId := Nat

structure FieldSlot where
  name : String
  descriptor : String
  type : TypeTag
  /-- Bytes from the start of an instance. -/
  offset : UInt64
  deriving DecidableEq, Inhabited

structure LoadedClass where
  name : String
  address : UInt64
  superId : Option ClassId
  /-- Inherited fields first, each in a slot of its own. -/
  fields : List FieldSlot
  /-- The object that stands for the class; null until there is a class for it. -/
  classObject : UInt64 := 0
  pool : Array PoolEntry
  poolAddress : UInt64
  cacheAddress : UInt64
  methods : List MethodId := []
  /-- Of an array class, the type of the elements. -/
  element : Option TypeTag := none
  deriving Inhabited

structure LoadedMethod where
  holder : ClassId
  name : String
  descriptor : MethodDescriptor
  access : Access
  kind : EntryKind
  address : UInt64
  codeBase : UInt64
  codeLength : Nat
  parameterWords : Nat
  handlers : List HandlerRow
  deriving Inhabited

/-- The index of the bytecode at an address, if it belongs to the method. -/
def LoadedMethod.bci? (m : LoadedMethod) (bcp : UInt64) : Option UInt16 :=
  if m.codeBase ≤ bcp ∧ (bcp - m.codeBase).toNat < m.codeLength then
    some (bcp - m.codeBase).toUInt16
  else none

def MemberRef.text (m : MemberRef) : String := m.holder ++ "." ++ m.name ++ m.descriptor

/-! Names of classes that the machine knows. -/
namespace KnownClass

def object : String := "java/lang/Object"
def classOfClasses : String := "java/lang/Class"
def throwable : String := "java/lang/Throwable"
def reference : String := "java/lang/ref/Reference"
def methodHandle : String := "java/lang/invoke/MethodHandle"

end KnownClass

structure ClassTable where
  metaspace : Memory.Region
  classes : Array LoadedClass := #[]
  methods : Array LoadedMethod := #[]
  /-- The entry of each kind of method. -/
  entries : List UInt64
  policy : EntryPolicy
  deriving Inhabited

namespace ClassTable

def size (t : ClassTable) : Nat := t.classes.size

def get (t : ClassTable) (id : ClassId) : LoadedClass := t.classes.getD id default

def method (t : ClassTable) (id : MethodId) : LoadedMethod := t.methods.getD id default

def find? (t : ClassTable) (name : String) : Option ClassId := t.classes.findIdx? (·.name == name)

/-- The class whose record is at the address. -/
def classAt? (t : ClassTable) (address : UInt64) : Option ClassId :=
  t.classes.findIdx? (·.address == address)

/-- The class that an object stands for. -/
def ofClassObject? (t : ClassTable) (object : UInt64) : Option ClassId :=
  if object = 0 then none else t.classes.findIdx? (·.classObject == object)

/-- The method whose record is at the address. -/
def methodAt? (t : ClassTable) (address : UInt64) : Option MethodId :=
  t.methods.findIdx? (·.address == address)

/-- The class itself, its superclass, and so on up to the root. -/
def lineage (t : ClassTable) (id : ClassId) : List ClassId :=
  id :: match (t.get id).superId with
    | some super => if super < id then lineage t super else []
    | none => []
termination_by id

def isSubclass (t : ClassTable) (sub super : ClassId) : Bool := (t.lineage sub).contains super

/-- The first method of the name that the class declares, with the descriptor if one is given. -/
def declared? (t : ClassTable) (holder : ClassId) (name : String) (descriptor : Option String) :
    Option MethodId :=
  (t.get holder).methods.find? fun id =>
    let m := t.method id
    m.name == name && descriptor.all (m.descriptor.text == ·)

/-- The declaration that is nearest in the lineage of a class. -/
def findMethod? (t : ClassTable) (id : ClassId) (name : String) (descriptor : Option String) :
    Option MethodId :=
  (t.lineage id).findSome? fun holder => t.declared? holder name descriptor

/-- A field hides those of the same name and type that the class inherits. -/
def findField? (t : ClassTable) (id : ClassId) (name descriptor : String) : Option FieldSlot :=
  (t.get id).fields.reverse.find? fun f => f.name == name && f.descriptor == descriptor

def arrayOf? (t : ClassTable) (element : TypeTag) : Option ClassId := t.find? element.arrayClassName

/-- A method with the names by which it is referred to. -/
def member (t : ClassTable) (id : MethodId) : MemberRef :=
  let m := t.method id
  ⟨(t.get m.holder).name, m.name, m.descriptor.text⟩

end ClassTable
end TemplateVm
