import TemplateVm.Guest.Value
import TemplateVm.Vm.Run

set_option autoImplicit false

/-!
# Calls from the host

A call puts the arguments where the call stub finds them, runs, and tells how the call ended.
-/
namespace TemplateVm

/-- How a call ends, short of a failure of the machine. -/
inductive Outcome where
  | returned (value : Value)
  | threw (exception : UInt64) (className : String) (message : Option String)
  /-- The called method was popped; the arguments that it had are kept, the first one first. -/
  | popped (arguments : List UInt64)
  deriving DecidableEq, Inhabited

namespace Vm

open Memory (Guarded)
open Register

/-- Argument slots: the two words of the result, and then the parameters. -/
def resultSlot : UInt64 := 0
def parameterSlot : UInt64 := 2

/-- The words in memory and the state of the thread at a call. Gives the entry of the method. -/
def prepareThread (t : ThreadBlock) (address : UInt64) (words : List UInt64) :
    Guarded.Action UInt64 := do
  words.zipIdx.forM fun (w, i) =>
    Guarded.write (t.argumentSlot (parameterSlot + i.toUInt64)) 8 w
  Guarded.write (t.argumentSlot resultSlot) 8 0
  Guarded.write (t.argumentSlot resultSlot + 8) 8 0
  let entry ← Guarded.readA (address + MethodRecord.fromInterpreted) 8
  let _ ← t.resetHandles
  t.setPending 0
  t.setVmResult 0
  t.setState .inGuest
  pure entry

/-- The processor at the call stub, with its arguments in registers and an empty stack. -/
def enterStub (t : ThreadBlock) (address entry : UInt64) (count : Nat) : Action Unit := do
  let vm ← get
  let stackTop := vm.map.stackBase &&& ~~~15
  let stub := vm.image.stubs.callStub
  let registers := [(x0, t.argumentSlot resultSlot), (x1, address), (x2, entry),
    (x3, t.argumentSlot parameterSlot), (x4, count.toUInt64), (x5, t.base), (frame, 0),
    (sp, stackTop), (link, Place.hostReturn)]
  modifyCpu fun cpu => { registers.foldl (fun cpu (r, n) => cpu.setReg r n) cpu with pc := stub }
  modify fun vm => { vm with processor := { vm.processor with steps := 0 } }

/-- What came of a call that came back. A yellow zone that was disarmed is armed again; an exception
    goes before a popped frame, and both before a result. -/
def outcome (result : TypeTag) : Action Outcome := do
  if (← onThread (·.guard)) = .yellowDisabled then
    let _ ← reguard
  match ← onThread (·.pending?) with
  | some exception =>
    onThread (·.setPending 0)
    let id ← onWorld (World.classOf exception)
    let vm ← get
    pure (.threw exception (vm.world.classes.get id).name (vm.message? exception))
  | none =>
    let p ← onThread (·.pop)
    if p.has FramePop.forceReexecutionBit then
      onThread (·.setPop .none)
      let arguments := (← get).preserved.getD []
      modify fun vm => { vm with preserved := none }
      pure (.popped arguments)
    else
      let (x0, v0) ← onThread fun t => do
        let x0 ← Guarded.readA (t.argumentSlot resultSlot) 8
        let v0 ← Guarded.readA (t.argumentSlot resultSlot + 8) 8
        pure (x0, v0)
      pure (.returned (.ofRegisters result x0 v0))

/-- Runs, and leaves the thread in the runtime even if running fails. -/
def runGuest : Action Unit := fun vm =>
  match run vm with
  | .ok _ vm => onThread (·.setState .inRuntime) vm
  | .error failure vm =>
    match onThread (·.setState .inRuntime) vm with
    | .ok _ vm => .error failure vm
    | .error other vm => .error other vm

/-- Calls a method with the words of its parameters, of which there must be as many as it takes. -/
def invoke (id : MethodId) (arguments : List Value) : Action Outcome := do
  let t ← classes
  let m := t.method id
  let words := arguments.flatMap Value.stackWords
  if words.length ≠ m.parameterWords then
    throw (.linkage
      s!"{(t.member id).text} takes {m.parameterWords} parameter words, got {words.length}")
  let entry ← onThread (prepareThread · m.address words)
  modify fun vm => { vm with preserved := none }
  enterStub ⟨(← get).map.thread⟩ m.address entry words.length
  runGuest
  outcome m.descriptor.result

/-- The first method of the name. -/
def lookup (className name : String) : Action MethodId := do
  let id ← onWorld (World.require className)
  match (← classes).findMethod? id name none with
  | some id => pure id
  | none => throw (.linkage s!"{className}.{name} not found")

def callStatic (className name : String) (arguments : List Value) : Action Outcome := do
  let id ← lookup className name
  if !((← classes).method id).access.isStatic then
    throw (.linkage s!"{className}.{name} is not static")
  invoke id arguments

def callInstance (className name : String) (receiver : UInt64) (arguments : List Value) :
    Action Outcome := do
  let id ← lookup className name
  if ((← classes).method id).access.isStatic then
    throw (.linkage s!"{className}.{name} is static")
  invoke id (.object receiver :: arguments)

/-- Calls the target of a method handle. -/
def invokeExact (handle : UInt64) (descriptor : String) (arguments : List Value) :
    Action Outcome := do
  let id ← onWorld (World.handleInvoker "invokeExact" descriptor)
  invoke id (.object handle :: arguments)

end Vm
end TemplateVm
