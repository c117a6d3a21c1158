import TemplateVm.Memory.Guarded
import TemplateVm.MemoryMap
import TemplateVm.Zoom

set_option autoImplicit false

/-!
# Safepoints

A safepoint is requested at any time and taken between two bytecodes: while one is armed, the active
dispatch table leads every bytecode into the service that runs the queued operations and disarms it.
-/
namespace TemplateVm

open Memory (Guarded)

structure Safepoints where
  /-- A safepoint has been asked for and not been taken since. -/
  requested : Bool := false
  /-- Names of the operations to be run, in the order of their requests. -/
  queue : List String := []
  /-- The dispatch tables are armed. -/
  armed : Bool := false
  taken : Nat := 0
  operationsRun : Nat := 0
  deriving DecidableEq, Inhabited

namespace Safepoints

def begin (s : Safepoints) : Safepoints := { s with requested := true }

def request (s : Safepoints) (name : String) : Safepoints :=
  { s with queue := s.queue ++ [name], requested := true }

/-- Actions on safepoints and on the memory with the dispatch tables. -/
abbrev Action := EStateM Failure (Safepoints × Guarded)

def onMemory {α : Type} (action : Guarded.Action α) : Action α :=
  zoom Prod.snd (fun mem s => (s.1, mem)) action

def update (f : Safepoints → Safepoints) : Action Unit := modify fun (s, mem) => (f s, mem)

def copyTable (source target : UInt64) : Guarded.Action Unit := do
  let table ← Guarded.readBytesA source Place.dispatchTableSize
  Guarded.writeBytes target table

/-- Numbers of the two states, as generated code compares them. -/
def idleCode : UInt64 := 0
def armedCode : UInt64 := 1

def arm : Action Unit := do
  onMemory do
    Guarded.write Place.safepointState 4 armedCode
    copyTable Place.safepointTable Place.activeTable
  update fun s => { s with armed := true }

def disarm : Action Unit := do
  onMemory do
    copyTable Place.normalTable Place.activeTable
    Guarded.write Place.safepointState 4 idleCode
  update fun s => { s with armed := false }

/-- Arms a safepoint that is requested and not armed yet; says whether it did. -/
def poll : Action Bool := do
  let (s, _) ← get
  if s.armed || !s.requested then pure false
  else
    arm
    pure true

/-- Runs the queued operations and disarms; gives their names. Nothing happens if the safepoint is
    over already. -/
def atSafepoint : Action (List String) := do
  let (s, _) ← get
  if !s.armed then pure []
  else
    update fun s => { s with
      queue := [], requested := false
      operationsRun := s.operationsRun + s.queue.length, taken := s.taken + 1 }
    disarm
    pure s.queue

end Safepoints
end TemplateVm
