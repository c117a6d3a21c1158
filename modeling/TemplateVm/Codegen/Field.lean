import TemplateVm.Bytecode.Opcode
import TemplateVm.Codegen.Sequence

set_option autoImplicit false

/-!
# Linked operations

A bytecode with a pool index works on the cache entry of the index, which is resolved when the
bytecode is executed for the first time. The state in the entry of a field says how the field is
accessed.
-/
namespace TemplateVm.Emit

open Register

/-- Leaves the entry for the operand in `entry`, resolved for this opcode. `field` is the byte of
    the entry that holds the opcode once it is resolved. -/
def resolveEntry (o : Opcode) (field : UInt64) (entry index : Register) : Emit Unit := do
  let indexBytes := if o = .invokedynamic then 4 else 2
  let resolved ← newLabel
  loadCacheEntry entry index 1 indexBytes
  ldrb scratch1 (cacheField entry field)
  cmp scratch1 o.byte.toUInt64
  bIf .eq resolved
  movImm x1 o.byte.toUInt64
  callVm none .resolve [x1]
  loadCacheEntry entry index 1 indexBytes
  bind resolved

/-- The offset of a field goes to `x1`, its state to `tos`. -/
def loadFieldEntry (entry tos : Register) : Emit Unit := do
  ldr x1 (cacheField entry CacheRecord.f2)
  ldr tos (cacheField entry CacheRecord.flags)
  lsr tos tos CacheRecord.tosShift

/-- The states in which a field can be. -/
def fieldStates : List TopOfStack :=
  [.byte, .boolean, .char, .short, .int, .long, .float, .double, .object]

/-- Runs the code for the state whose number is in `tos`. -/
def switchState (tos : Register) (code : TopOfStack → Emit Unit) : Emit Unit := do
  let done ← newLabel
  fieldStates.forM fun state => do
    let next ← newLabel
    cmp tos state.index.toUInt64
    bIf .ne next
    code state
    b done
    bind next
  stop "bad field tos state"
  bind done

/-- Loads the field at `x0 + x1`. -/
def readField : TopOfStack → Emit Unit
  | .byte => ldrsb x0 (.index x0 x1 0)
  | .boolean => ldrb x0 (.index x0 x1 0)
  | .char => ldrh x0 (.index x0 x1 0)
  | .short => ldrsh x0 (.index x0 x1 0)
  | .int => ldrsw x0 (.index x0 x1 0)
  | .float => ldrs .v0 (.index x0 x1 0)
  | .double => ldrd .v0 (.index x0 x1 0)
  | _ => ldr x0 (.index x0 x1 0)

/-- Loads the field at `x0 + x1`; pushes it or leaves it held. -/
def loadField (tos : Register) (pushed : Bool) : Emit Unit :=
  switchState tos fun state => do
    readField state
    if pushed then push state
    else if state = .object then verifyReference x0

/-- While marking is active, hands the old value of a reference field to the marker. -/
def markBarrier (object offset : Register) : Emit Unit := do
  if (← settings).markBarrier then
    let done ← newLabel
    movImm scratch1 Place.markingActive
    ldrb scratch1 scratch1.at
    cbz scratch1 done
    ldr x5 (.index object offset 0)
    cbz x5 done
    stp x0 x1 (.pre sp (-16))
    stp x3 x4 (.pre sp (-16))
    callLeaf .markBarrier [x5]
    ldp x3 x4 (.post sp 16)
    ldp x0 x1 (.post sp 16)
    bind done

/-- Stores into the field at `x3 + x1`. -/
def writeField : TopOfStack → Emit Unit
  | .byte | .boolean => strb x0 (.index x3 x1 0)
  | .char | .short => strh x0 (.index x3 x1 0)
  | .int => strw x0 (.index x3 x1 0)
  | .float => strs .v0 (.index x3 x1 0)
  | .double => strd .v0 (.index x3 x1 0)
  | .long => str x0 (.index x3 x1 0)
  | _ => do
    markBarrier x3 x1
    str x0 (.index x3 x1 0)

/-- Pops a value and an object, and stores into the field at offset `x1`. -/
def storeField (tos : Register) : Emit Unit :=
  switchState tos fun state => do
    pop state
    popWord x3
    writeField state

end TemplateVm.Emit
