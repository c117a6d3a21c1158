import TemplateVm.Vm.Services

set_option autoImplicit false

/-!
# Running

The machine runs in turns: the processor executes instructions until something else has to be
done, a service, a call of the host, or a fault that means something to guest code. Requests for
safepoints are noticed at regular intervals.
-/
namespace TemplateVm.Vm

/-- Instructions and events between two looks at requested safepoints. -/
def pollInterval : Nat := 256

def poll : Action Unit := do
  let _ ← onSafepoints Safepoints.poll

/-- Calls a function of the host with the argument registers. -/
def callNative (target : UInt64) (packed : UInt32) : Action Unit := do
  let format ← match Native.CallFormat.unpack packed with
    | .ok format => pure format
    | .error defect => throw (.nativeBridge defect.message)
  let vm ← get
  let cpu := vm.processor.cpu
  match vm.bridge.invoke target format (Register.arguments.map cpu.reg) cpu.v.toList with
  | .error defect => throw (.nativeBridge defect.message)
  | .ok (results, bridge) =>
    modify fun vm => { vm with bridge }
    modifyCpu fun cpu => (cpu.setReg .x0 results.x0).setFloat .v0 results.v0
    match ← consult Hooks.afterNativeCall with
    | .nothing => pure ()
    | .safepoint =>
      modify fun vm => { vm with safepoints := vm.safepoints.begin }
      poll
    | .suspend => onThread (·.setSuspend 1)

/-- In the interpreter, a touch of the null page is a null pointer, and one of the yellow zone a
    stack overflow, for which the zone is disarmed. A touch of the red zone is fatal. -/
def handleFault (fault : MemoryFault) : Action Unit := do
  let vm ← get
  let inside := vm.image.contains vm.processor.cpu.pc
  let map := vm.map
  let exceptions := vm.image.exceptions
  if fault.guard = some GuardTag.nullPage ∧ inside then goTo exceptions.throwNullPointer
  else if fault.guard = some GuardTag.yellowZone ∧ inside then
    onMemory (modify fun m => m.unprotect map.redEnd map.yellowSize)
    onThread (·.setGuard .yellowDisabled)
    goTo exceptions.throwStackOverflow
  else if fault.guard = some GuardTag.redZone then throw (.stackOverflowFatal fault.address)
  else throw (.memoryFault fault)

/-- Runs until control returns to the host; `untilPoll` steps are left before the next look at
    safepoints. Every turn but the last executes an instruction or handles an event that follows
    one, so that the limit of steps bounds the number of turns. -/
def runTurns : Nat → Nat → Action Unit
  | 0, _ => do throw (.stepLimitExceeded (← get).processor.maxSteps)
  | turns + 1, untilPoll => do
    let code := (← get).image.code
    let (left, outcome) ← onMachine (Machine.run code untilPoll)
    let goOn : Action Unit := do
      if left = 0 then
        poll
        runTurns turns pollInterval
      else runTurns turns left
    match outcome with
    | .error (.memoryFault fault) =>
      handleFault fault
      runTurns turns left
    | .error failure => throw failure
    | .ok .hostReturn => pure ()
    | .ok .next => goOn
    | .ok (.service s) =>
      serve s
      goOn
    | .ok (.native target format) =>
      callNative target format
      goOn

def run : Action Unit := do
  let limit := (← get).processor.maxSteps.toNat
  runTurns (3 * limit + 3) pollInterval

end TemplateVm.Vm
