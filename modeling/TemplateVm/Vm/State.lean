import TemplateVm.Class.Loading
import TemplateVm.Frame
import TemplateVm.Hooks
import TemplateVm.Image
import TemplateVm.Machine.Cpu
import TemplateVm.Memory.MarkQueue
import TemplateVm.Native.Bridge
import TemplateVm.Native.Library
import TemplateVm.Safepoint
import TemplateVm.ThreadBlock
import TemplateVm.Trace

set_option autoImplicit false

/-!
# The virtual machine

The processor with its memory and code, the loaded classes, and what the runtime services keep about
them.
-/
namespace TemplateVm

/-- A held lock: how often it was taken, and the mark word to be put back. -/
structure Lock where
  count : UInt32
  displacedMark : UInt64
  deriving DecidableEq, Inhabited

structure Vm where
  settings : Settings
  map : MemoryMap
  image : Image
  processor : Processor
  world : World
  safepoints : Safepoints := {}
  library : Native.Library := {}
  bridge : Native.Bridge := {}
  hooks : Hooks := {}
  marks : Memory.MarkQueue := {}
  /-- Messages of exception objects. -/
  messages : List (UInt64 × String) := []
  /-- Locks by the object that is locked. -/
  locks : List (UInt64 × Lock) := []
  trace : Trace := {}
  /-- Arguments of a frame that was popped before it returned to the host. -/
  preserved : Option (List UInt64) := none
  deriving Inhabited

namespace Vm

open Memory (Guarded)

abbrev Action := EStateM Failure Vm

@[inline] def onWorld {α : Type} (action : World.Action α) : Action α :=
  zoom Vm.world (fun world vm => { vm with world }) action

@[inline] def onMemory {α : Type} (action : Guarded.Action α) : Action α :=
  onWorld (World.onMemory action)

def onThread {α : Type} (action : ThreadBlock → Guarded.Action α) : Action α := do
  let base := (← get).map.thread
  onMemory (action ⟨base⟩)

def onSafepoints {α : Type} (action : Safepoints.Action α) : Action α :=
  zoom (fun vm => (vm.safepoints, vm.world.store.mem))
    (fun (safepoints, mem) vm =>
      { vm with safepoints, world := { vm.world with store := { vm.world.store with mem } } })
    action

/-- Lets the processor work on the memory. -/
def onMachine {α : Type} (f : Machine → α × Machine) : Action α := fun vm =>
  let m : Machine := ⟨vm.processor, vm.world.store.mem⟩
  let vm := { vm with
    processor := default
    world := { vm.world with store := { vm.world.store with mem := default } } }
  let (a, m) := f m
  .ok a { vm with
    processor := m.processor
    world := { vm.world with store := { vm.world.store with mem := m.mem } } }

def reg (r : Register) : Action UInt64 := return (← get).processor.cpu.reg r

def modifyCpu (f : Cpu → Cpu) : Action Unit :=
  modify fun vm => { vm with processor := { vm.processor with cpu := f vm.processor.cpu } }

def setReg (r : Register) (n : UInt64) : Action Unit := modifyCpu (·.setReg r n)

def goTo (pc : UInt64) : Action Unit := modifyCpu fun cpu => { cpu with pc }

def classes : Action ClassTable := return (← get).world.classes

/-- Changes the hooks and gives what they decide. -/
def consult {α : Type} (f : Hooks → α × Hooks) : Action α := modifyGet fun vm =>
  let (a, hooks) := f vm.hooks
  (a, { vm with hooks })

def note (e : HookEvent) : Action Unit := modify fun vm => { vm with hooks := vm.hooks.note e }

/-- Guards the three ranges of memory that are never touched by sound programs. -/
def guarded (m : Guarded) (map : MemoryMap) : Guarded :=
  ((m.protect 0 Place.nullPageEnd GuardTag.nullPage).protect
    map.stackLimit (map.redEnd - map.stackLimit) GuardTag.redZone).protect
    map.redEnd map.yellowSize GuardTag.yellowZone

/-- A machine for valid settings, ready to load classes. -/
def create (settings : Settings) : Except Failure Vm := do
  let image ← (Image.generate settings).mapError fun d => .codeGeneration d.message
  let map := MemoryMap.ofSettings settings
  let world : World :=
    { store := { mem := guarded (.zeros map.size) map, heap := .ofRange map.heapStart map.heapSize }
      classes :=
        { metaspace := .ofSize map.metaspaceStart map.metaspaceSize
          entries := image.methodEntries
          policy := ⟨settings.fastEmptyMethods, settings.fastAccessorMethods⟩ } }
  let prepare : Action Unit := do
    onMemory image.install
    onWorld World.bootstrap
    onThread (·.setUp map.stackBase map.stackSize)
  match prepare { settings, map, image, world, processor := { maxSteps := settings.maxSteps } } with
  | .ok _ vm => .ok vm
  | .error failure _ => .error failure

/-- The frame of the guest method that called a service. -/
def lastFrame : Action Frame := do
  let f ← onThread (·.lastFrame)
  if f.sp = 0 then throw (.internal "VM call without a last Java frame")
  pure ⟨f.fp⟩

def methodOf (f : Frame) : Action MethodId := do
  let address ← onMemory (f.read Frame.method)
  match (← classes).methodAt? address with
  | some id => pure id
  | none =>
    throw (.internal
      s!"frame {Text.hex f.fp.toNat} has bad method {Text.hex address.toNat}")

end Vm
end TemplateVm
