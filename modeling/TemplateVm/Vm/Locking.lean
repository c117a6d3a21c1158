import TemplateVm.Vm.Throwing

set_option autoImplicit false

/-!
# Locking

An object is locked as often as monitor records name it. The first record keeps the mark word of the
object, which is put back when the last one is freed.
-/
namespace TemplateVm.Vm

open Memory (Guarded)

def lock? (vm : Vm) (object : UInt64) : Option Lock := vm.locks.lookup object

/-- Replaces the lock of an object, or removes it. -/
def setLock (object : UInt64) (lock : Option Lock) : Action Unit := modify fun vm =>
  let others := vm.locks.filter (·.1 ≠ object)
  { vm with locks := (lock.toList.map (object, ·)) ++ others }

/-- Locks the object of a monitor record. -/
def monitorEnter (record : UInt64) : Action Unit := do
  let object ← onMemory (Guarded.readA (record + Frame.monitorObject) 8)
  if object = 0 then post .nullPointer
  else
    match (← get).lock? object with
    | some lock =>
      setLock object (some { lock with count := lock.count + 1 })
      onMemory (Guarded.write record 8 0)
    | none =>
      let mark ← onMemory do
        let mark ← Guarded.readA (object + Memory.ObjectShape.mark) 8
        Guarded.write record 8 mark
        Guarded.write (object + Memory.ObjectShape.mark) 8 record
        pure mark
      setLock object (some ⟨1, mark⟩)

/-- Frees a monitor record and unlocks its object. -/
def monitorExit (record : UInt64) : Action Unit := do
  let object ← onMemory do
    let object ← Guarded.readA (record + Frame.monitorObject) 8
    Guarded.write (record + Frame.monitorObject) 8 0
    Guarded.write record 8 0
    pure object
  match (← get).lock? object with
  | none => post .illegalMonitorState
  | some lock =>
    if lock.count = 1 then
      setLock object none
      onMemory (Guarded.write (object + Memory.ObjectShape.mark) 8 lock.displacedMark)
    else setLock object (some { lock with count := lock.count - 1 })

end TemplateVm.Vm
