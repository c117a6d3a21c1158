import TemplateVm.Class.Table
import TemplateVm.Guest.TopOfStack
import TemplateVm.Text.Hex

set_option autoImplicit false

/-!
# The trace

A record of each executed bytecode, of which the latest are kept.
-/
namespace TemplateVm

structure TraceRecord where
  method : MemberRef
  bci : UInt16
  opcode : Option Opcode
  tos : TopOfStack
  /-- The two registers of which one holds the topmost operand. -/
  x0 : UInt64
  v0 : UInt64
  deriving DecidableEq, Inhabited

/-- Method, position, bytecode, and the operand that is held. -/
def TraceRecord.text (r : TraceRecord) : String :=
  let name := (r.opcode.map Opcode.name).getD "<illegal>"
  let held := match r.tos with
    | .none => ""
    | .float | .double => " " ++ Text.hex r.v0.toNat
    | _ => " " ++ Text.hex r.x0.toNat
  s!"{r.method.text} @{r.bci.toNat} {name} [{r.tos.name}{held}]"

/-- Old records are dropped in blocks, so that few of them are ever moved. -/
structure Trace where
  records : Array TraceRecord := #[]
  deriving Inhabited

namespace Trace

def capacity : Nat := 4096

/-- The last records, up to the capacity, from the oldest on. -/
def recent (t : Trace) : Array TraceRecord :=
  t.records.extract (t.records.size - capacity) t.records.size

def push (t : Trace) (r : TraceRecord) : Trace :=
  if t.records.size < 2 * capacity then ⟨t.records.push r⟩ else ⟨t.recent.push r⟩

end Trace
end TemplateVm
