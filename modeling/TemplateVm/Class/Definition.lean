import TemplateVm.Bytecode.Opcode
import TemplateVm.Class.Descriptor
import TemplateVm.Class.EntryKind
import TemplateVm.Guest.Access
import TemplateVm.Text.Quoted

set_option autoImplicit false

/-!
# Class definitions

What is handed to the loader: fields, constants and methods, with the structural checks that do not
depend on other classes. Bodies are not verified.
-/
namespace TemplateVm

/-- A field or method named from elsewhere. -/
structure MemberRef where
  holder : String
  name : String
  descriptor : String
  deriving DecidableEq, Inhabited

inductive PoolEntry where
  | classRef (name : String)
  | fieldRef (member : MemberRef)
  | methodRef (member : MemberRef)
  /-- A call site, linked to a static method. -/
  | callSite (member : MemberRef)
  deriving DecidableEq, Inhabited

/-- A row of an exception table: protects the bytes from `startPc` up to, not including, `endPc`.
    Without a type it catches everything. -/
structure HandlerRow where
  startPc : UInt16
  endPc : UInt16
  handlerPc : UInt16
  catchType : Option String
  deriving DecidableEq, Inhabited

structure FieldDefinition where
  name : String
  descriptor : String
  deriving DecidableEq, Inhabited

structure MethodDefinition where
  name : String
  descriptor : String
  access : Access := .publicStatic
  maxLocals : UInt16 := 0
  maxStack : UInt16 := 8
  code : List UInt8 := []
  handlers : List HandlerRow := []
  deriving DecidableEq, Inhabited

structure ClassDefinition where
  name : String
  superName : Option String := none
  fields : List FieldDefinition := []
  methods : List MethodDefinition := []
  pool : List PoolEntry := []
  deriving DecidableEq, Inhabited

/-- Why a definition is rejected. -/
inductive ClassDefect where
  | methodDescriptor (text : String)
  | fieldDescriptor (text : String)
  | emptyName
  | emptyClassRef (holder : String) (index : Nat)
  | unwantedBody (method : String)
  | missingBody (method : String)
  | bodyTooLarge (method : String)
  | badHandler (method : String) (row : HandlerRow)
  deriving DecidableEq

def HandlerRow.text (row : HandlerRow) : String :=
  Text.record "ExceptionHandler" [("start_pc", toString row.startPc.toNat),
    ("end_pc", toString row.endPc.toNat), ("handler_pc", toString row.handlerPc.toNat),
    ("catch_type", Text.quoteOption row.catchType)]

def PoolEntry.text : PoolEntry → String
  | classRef name => Text.record "Class" [("name", Text.quote name)]
  | fieldRef m => memberText "Field" m
  | methodRef m => memberText "Method" m
  | callSite m => memberText "CallSite" m
where
  memberText (kind : String) (m : MemberRef) : String :=
    Text.record kind [("class", Text.quote m.holder), ("name", Text.quote m.name),
      ("descriptor", Text.quote m.descriptor)]

def ClassDefect.message : ClassDefect → String
  | methodDescriptor text => "malformed method descriptor " ++ Text.quote text
  | fieldDescriptor text => "malformed field descriptor " ++ Text.quote text
  | emptyName => "empty class name"
  | emptyClassRef holder index => s!"{holder}: empty class reference at #{index}"
  | unwantedBody method => method ++ ": native or abstract method has a body"
  | missingBody method => method ++ ": missing body"
  | bodyTooLarge method => method ++ ": body too large"
  | badHandler method row => s!"{method}: bad exception table row {row.text}"

def MethodDescriptor.ofText (text : String) : Except ClassDefect MethodDescriptor :=
  match ofText? text with
  | some d => .ok d
  | none => .error (.methodDescriptor text)

def fieldType (text : String) : Except ClassDefect TypeTag :=
  match fieldType? text with
  | some t => .ok t
  | none => .error (.fieldDescriptor text)

namespace MethodDefinition

/-- Words of the parameters with the receiver of an instance method. -/
def parameterWords (m : MethodDefinition) : Except ClassDefect Nat := do
  let d ← MethodDescriptor.ofText m.descriptor
  pure (d.parameterWords + if m.access.isStatic then 0 else 1)

/-- A native or abstract method has no body. -/
def isBodyless (m : MethodDefinition) : Bool := m.access.isNative || m.access.isAbstract

def HandlerFits (length : Nat) (row : HandlerRow) : Prop :=
  row.startPc < row.endPc ∧ row.endPc.toNat ≤ length ∧ row.handlerPc.toNat < length

instance (length : Nat) (row : HandlerRow) : Decidable (HandlerFits length row) := by
  unfold HandlerFits; infer_instance

/-- Checks a method; `holder` is the name of its class. -/
def validate (holder : String) (m : MethodDefinition) : Except ClassDefect Unit := do
  let _ ← MethodDescriptor.ofText m.descriptor
  let method := holder ++ "." ++ m.name ++ m.descriptor
  if m.isBodyless ∧ m.code ≠ [] then .error (.unwantedBody method)
  else if ¬ m.isBodyless ∧ m.code = [] then .error (.missingBody method)
  else if 65535 < m.code.length then .error (.bodyTooLarge method)
  else
    match m.handlers.find? (fun row => ¬ HandlerFits m.code.length row) with
    | some row => .error (.badHandler method row)
    | none => .ok ()

end MethodDefinition

def PoolEntry.validate (holder : String) (index : Nat) : PoolEntry → Except ClassDefect Unit
  | fieldRef m => do let _ ← fieldType m.descriptor
  | methodRef m | callSite m => do let _ ← MethodDescriptor.ofText m.descriptor
  | classRef name => if name = "" then .error (.emptyClassRef holder index) else .ok ()

namespace ClassDefinition

def method? (c : ClassDefinition) (name descriptor : String) : Option MethodDefinition :=
  c.methods.find? fun m => m.name = name ∧ m.descriptor = descriptor

/-- The first defect in the order name, fields, constants, methods is reported. -/
def validate (c : ClassDefinition) : Except ClassDefect Unit := do
  if c.name = "" then .error .emptyName
  c.fields.forM fun f => do let _ ← fieldType f.descriptor
  c.pool.zipIdx.forM fun (entry, index) => entry.validate c.name index
  c.methods.forM fun m => m.validate c.name

end ClassDefinition

/-- Which of the short entries may be used. -/
structure EntryPolicy where
  fastEmpty : Bool := true
  fastAccessor : Bool := true
  deriving DecidableEq, Inhabited

namespace EntryKind

/-- A getter: loads the receiver, reads one field and returns it. -/
def isGetter (m : MethodDefinition) : Bool :=
  !m.access.isStatic && m.descriptor.startsWith "()" &&
    match m.code with
    | [load, get, _, _, last] =>
      load == Opcode.aload0.byte && get == Opcode.getfield.byte &&
        ((Opcode.ofByte? last).map fun o => o.isReturn && o != .returnVoid).getD false
    | _ => false

/-- Methods of the library whose results the machine computes itself. -/
def intrinsic? (holder : String) (m : MethodDefinition) : Option EntryKind :=
  if holder = "java/lang/ref/Reference" ∧ m.name = "get"
      ∧ m.descriptor = "()Ljava/lang/Object;" then some referenceGet
  else if holder ≠ "java/lang/Math" ∨ ¬ m.access.isStatic then none
  else match m.name, m.descriptor with
    | "sin", "(D)D" => some mathSin
    | "cos", "(D)D" => some mathCos
    | "tan", "(D)D" => some mathTan
    | "abs", "(D)D" => some mathAbs
    | "sqrt", "(D)D" => some mathSqrt
    | "log", "(D)D" => some mathLog
    | "log10", "(D)D" => some mathLog10
    | "exp", "(D)D" => some mathExp
    | "pow", "(DD)D" => some mathPow
    | _, _ => none

/-- The kind of a method of the class `holder`. -/
def ofMethod (holder : String) (m : MethodDefinition) (policy : EntryPolicy) : EntryKind :=
  if m.access.isAbstract then abstract
  else if holder = "java/lang/invoke/MethodHandle" ∧ (m.name = "invokeExact" ∨ m.name = "invoke")
  then methodHandle
  else if m.access.isNative then
    if m.access.isSynchronized then nativeSynchronized else native
  else if m.access.isSynchronized then normalSynchronized
  else if policy.fastEmpty ∧ m.code = [Opcode.returnVoid.byte] then empty
  else match intrinsic? holder m with
    | some kind => kind
    | none => if policy.fastAccessor ∧ isGetter m then accessor else normal

end EntryKind
end TemplateVm
