import TemplateVm.Codegen.Sequence

set_option autoImplicit false

/-!
# Return and safepoint entries

An interpreted caller is resumed at a return entry, which is chosen by the length of the call and
by the state of its result. While a safepoint is requested, every bytecode is dispatched to a
safepoint entry.
-/
namespace TemplateVm.Emit

open Register

/-- Resumes the caller behind a call of `length` bytes with an index of `indexBytes`. -/
def returnEntry (tos : TopOfStack) (length : UInt64) (indexBytes : Nat) : Emit UInt64 := do
  let entry ← pc
  ldr operands (frameSlot Frame.lastSp)
  str zero (frameSlot Frame.lastSp)
  restoreBytecode
  restoreLocals
  restoreCache
  loadMethod method
  loadCacheEntry x1 x2 1 indexBytes
  ldr x1 (cacheField x1 CacheRecord.flags)
  and x1 x1 CacheRecord.parameterMask
  add operands operands (x1.lsl 3)
  restoreSp 2
  loadDispatch
  dispatchNext tos length
  pure entry

/-- The return entries of ordinary calls and of call sites, each in the order of the states. -/
def returnEntries : Emit (List UInt64 × List UInt64) := do
  let (_, calls) ← stub "invoke return entry points" do
    TopOfStack.all.mapM fun tos => returnEntry tos 3 2
  let (_, sites) ← stub "invokedynamic return entry points" do
    TopOfStack.all.mapM fun tos => returnEntry tos 5 4
  pure (calls, sites)

/-- Saves the held value, waits for the safepoint to end, and executes the bytecode normally. -/
def safepointEntry (tos : TopOfStack) : Emit UInt64 := do
  let entry ← pc
  push tos
  callVm none .atSafepoint []
  dmb
  dispatchVia .none Place.normalTable
  pure entry

def safepointEntries : Emit (List UInt64) := do
  let (_, entries) ← stub "safepoint entry points" (TopOfStack.all.mapM safepointEntry)
  pure entries

end TemplateVm.Emit
