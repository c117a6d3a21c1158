import TemplateVm.Codegen.Dispatch
import TemplateVm.Codegen.Entry.ByKind
import TemplateVm.Codegen.Returns
import TemplateVm.Codegen.SignatureHandler

set_option autoImplicit false

/-!
# The interpreter image

All generated code with its entries. An image is made once for given settings; only signature
handlers are added to it later.
-/
namespace TemplateVm

structure Image where
  settings : Settings
  code : CodeCache
  stubs : Stubs
  exceptions : ExceptionEntries
  /-- First address of the interpreter proper, and the one behind its last. -/
  start : UInt64
  stop : UInt64
  /-- In the order of the kinds. -/
  methodEntries : List UInt64
  /-- For calls of three bytes, in the order of the states. -/
  callReturns : List UInt64
  /-- For call sites, in the order of the states. -/
  siteReturns : List UInt64
  resultHandlers : List UInt64
  normalTable : DispatchTable
  safepointTable : DispatchTable
  illegalSequence : UInt64
  unimplementedBytecode : UInt64
  signatures : List (Signature × UInt64) := []
  deriving Inhabited

namespace Image

open Emit

/-- The entries that the code of the interpreter leaves behind. -/
structure Parts where
  exceptions : ExceptionEntries
  methodEntries : List UInt64
  callReturns : List UInt64
  siteReturns : List UInt64
  resultHandlers : List UInt64
  safepoints : EntryPoint
  templates : List (Opcode × EntryPoint)
  illegalSequence : UInt64
  unimplementedBytecode : UInt64

/-- Emits the interpreter: error exits, tracing, returns, result handlers, safepoints, exceptions,
    method entries and templates. `popFrame` is bound along with the exceptions. -/
def parts (stubs : Stubs) (popFrame : CodeLabel) : Emit Parts := do
  let (illegalSequence, _) ← stub "illegal bytecode sequence" do
    Emit.stop "illegal bytecode sequence - method not verified"
  let (unimplementedBytecode, _) ← stub "unimplemented bytecode" do
    Emit.stop "unimplemented bytecode"
  let trace ← traceEntries
  let (callReturns, siteReturns) ← returnEntries
  let resultHandlers ← Emit.resultHandlers
  let safepoints ← safepointEntries
  let exceptions ← ExceptionEntries.all popFrame
  let objectHandler := resultHandlers.getD (TypeTag.resultHandlerIndex .object) 0
  let methodEntries ← Emit.methodEntries stubs objectHandler
  let templates ← entryPoints exceptions illegalSequence (.ofList trace)
  pure { exceptions, methodEntries, callReturns, siteReturns, resultHandlers
         safepoints := .ofList safepoints, templates, illegalSequence, unimplementedBytecode }

def interpreter (stubs : Stubs) : Emit Parts := do
  let popFrame ← newLabel
  withReader ({ · with popFrame := some popFrame }) (parts stubs popFrame)

/-- The image for valid settings. -/
def generate (settings : Settings) : Except AssemblyDefect Image := do
  let code := CodeCache.ofRange Place.codeBase Place.codeLimit
  let (stubBlob, stubs) ← toBlob "stubs" code.nextBase { settings } Stubs.all
  let code ← code.install stubBlob
  let (blob, parts) ← toBlob "interpreter" code.nextBase
    { settings, forwardException := stubs.forwardException } (interpreter stubs)
  let code ← code.install blob
  let unimplemented := EntryPoint.uniform parts.unimplementedBytecode
  let template (o : Opcode) : EntryPoint :=
    ((parts.templates.find? (·.1 = o)).map (·.2)).getD unimplemented
  pure { settings, code, stubs, start := blob.start, stop := blob.stop
         exceptions := parts.exceptions
         methodEntries := parts.methodEntries, callReturns := parts.callReturns
         siteReturns := parts.siteReturns, resultHandlers := parts.resultHandlers
         normalTable := .ofOpcodes template unimplemented
         safepointTable := .ofOpcodes (fun _ => parts.safepoints) unimplemented
         illegalSequence := parts.illegalSequence
         unimplementedBytecode := parts.unimplementedBytecode }

def methodEntry (i : Image) (kind : EntryKind) : UInt64 := i.methodEntries.getD kind.index 0

def resultHandler (i : Image) (t : TypeTag) : UInt64 :=
  i.resultHandlers.getD t.resultHandlerIndex 0

/-- The address belongs to the interpreter proper, not to stubs or signature handlers. -/
def contains (i : Image) (pc : UInt64) : Bool := i.start ≤ pc && pc < i.stop

/-- The first mark of the name in any blob. -/
def mark? (i : Image) (name : String) : Option UInt64 := i.code.blobs.findSome? (·.mark? name)

/-- The listing of the first stub of the name in any blob. -/
def stubListing? (i : Image) (name : String) : Option String :=
  i.code.blobs.findSome? fun b => (b.stubNamed? name).map fun s => b.listing s.start s.stop

/-- The listing of a blob or, if none has the name, of a stub. -/
def listing? (i : Image) (name : String) : Option String :=
  ((i.code.blobNamed? name).map (·.fullListing)) <|> i.stubListing? name

open Memory (Guarded)

/-- Writes words one behind the other. -/
def writeWords (a : UInt64) : List UInt64 → Guarded.Action Unit
  | [] => pure ()
  | w :: ws => do
    Guarded.write a 8 w
    writeWords (a + 8) ws

/-- Puts the tables into memory; dispatch is normal at first. -/
def install (i : Image) : Guarded.Action Unit := do
  writeWords Place.normalTable i.normalTable.words
  writeWords Place.safepointTable i.safepointTable.words
  writeWords Place.activeTable i.normalTable.words
  writeWords Place.returnTable (i.callReturns ++ i.siteReturns)

/-- The signature handler for a native method, generated if there is none yet. -/
def signatureHandler (i : Image) (d : MethodDescriptor) (isStatic : Bool) :
    Except Failure (UInt64 × Image) := do
  let s ← Signature.ofDescriptor d isStatic
  match i.signatures.find? (·.1 = s) with
  | some (_, handler) => pure (handler, i)
  | none =>
    let added : Except AssemblyDefect (UInt64 × Image) := do
      let blob ← s.blob i.code.nextBase i.settings (i.resultHandler d.result)
      let code ← i.code.install blob
      pure (blob.start, { i with code, signatures := (s, blob.start) :: i.signatures })
    match added with
    | .ok result => pure result
    | .error defect => throw (.codeGeneration defect.message)

/-- `s` filled up on the right to 48 characters. -/
def padded (s : String) : String := s ++ String.ofList (List.replicate (48 - s.length) ' ')

/-- A line for each blob and for each of its stubs. -/
def summary (i : Image) : String :=
  let range (start stop : UInt64) : String :=
    s!"[{Text.hex start.toNat}, {Text.hex stop.toNat})"
  let stubLine (s : Stub) : String :=
    s!"  {padded s.name} {range s.start s.stop} {s.size.toNat} bytes\n"
  let blobLines (b : Blob) : String :=
    s!"{b.name} {range b.start b.stop}\n" ++ String.join (b.stubs.toList.map stubLine)
  String.join (i.code.blobs.toList.map blobLines)

end Image
end TemplateVm
