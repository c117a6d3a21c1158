import TemplateVm.Codegen.Unwinding
import TemplateVm.Vm.State

set_option autoImplicit false

/-!
# Throwing exceptions

Exceptions of the guest program are objects with an optional message. A posted exception waits in
the thread until control returns to generated code.
-/
namespace TemplateVm.Vm

def allocateException (e : BuiltinException) (message : Option String) : Action UInt64 := do
  match (← classes).find? e.className with
  | none => throw (.internal (e.className ++ " is not loaded"))
  | some id =>
    let object ← onWorld (World.newInstance id)
    match message with
    | some text => modify fun vm => { vm with messages := (object, text) :: vm.messages }
    | none => pure ()
    pure object

def post (e : BuiltinException) (message : Option String := none) : Action Unit := do
  let object ← allocateException e message
  onThread (·.setPending object)

def message? (vm : Vm) (exception : UInt64) : Option String := vm.messages.lookup exception

def exceptionAt (index : UInt64) : Action BuiltinException :=
  match BuiltinException.ofIndex? index.toNat with
  | some e => pure e
  | none => throw (.internal s!"bad exception index {index.toNat}")

/-- Class names in messages have dots. -/
def dotted (name : String) : String := name.map fun c => if c = '/' then '.' else c

def createException (index message : UInt64) : Action Unit := do
  let e ← exceptionAt index
  let object ← allocateException e (exceptionMessage? message)
  onThread (·.setVmResult object)

/-- The message names the class of an object. -/
def createClassException (index object : UInt64) : Action Unit := do
  let e ← exceptionAt index
  let id ← onWorld (World.classOf object)
  let name := ((← classes).get id).name
  let exception ← allocateException e (some (dotted name))
  onThread (·.setVmResult exception)

/-- Replaces the exception that is on its way. -/
def newIllegalMonitorState : Action Unit := do
  let object ← allocateException .illegalMonitorState none
  onThread (·.setPending 0)
  onThread (·.setVmResult object)

/-- The first row of a method's table that covers the position and catches the class. -/
def handler? (t : ClassTable) (m : LoadedMethod) (bcp : UInt64) (thrown : ClassId) :
    Option UInt64 := do
  let bci ← m.bci? bcp
  let catches (row : HandlerRow) : Bool :=
    match row.catchType with
    | none => true
    | some name => (t.find? name).any (t.isSubclass thrown)
  let row ← m.handlers.find? fun row => row.startPc ≤ bci && bci < row.endPc && catches row
  pure (m.codeBase + row.handlerPc.toUInt64)

/-- Where an exception of the current activation goes on: in a handler of the method, or on the way
    out of the activation. -/
def handlerForException (exception : UInt64) : Action UInt64 := do
  let frame ← lastFrame
  let id ← methodOf frame
  let bcp ← onMemory (frame.read Frame.bytecode)
  let thrown ← onWorld (World.classOf exception)
  let t ← classes
  onThread (·.setPending 0)
  onThread (·.setVmResult exception)
  match handler? t (t.method id) bcp thrown with
  | some handler => onMemory do
    frame.setBytecode handler
    let byte ← Memory.Guarded.readA handler 1
    Memory.Guarded.readA (Place.dispatchSlot Place.activeTable .none byte.toUInt8) 8
  | none => return (← get).image.exceptions.removeActivation

/-- Where an exception goes on in the caller that a return address belongs to. -/
def handlerForReturnAddress (a : UInt64) : Action UInt64 := do
  let image := (← get).image
  if image.contains a then pure image.exceptions.rethrow
  else if a = image.stubs.callStubReturn then pure image.stubs.catchException
  else throw (.internal s!"no exception handler for return address {Text.hex a.toNat}")

end TemplateVm.Vm
