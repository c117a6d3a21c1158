import TemplateVm.Image
import TemplateVm.Proofs.Layout.Labels

set_option autoImplicit false
set_option synthInstance.maxSize 100000

/-!
# All generated code is orderly

Code sequences, templates, method entries, exception code, return entries and stubs keep the label
discipline. The numbers are bounds on their instructions, and generous ones.
-/
namespace TemplateVm.Orderly

open Emit

variable {ctx : CodeContext} {b : Bool} {K S T : List CodeLabel} {n : Nat}

/-! ## The operand stack -/

instance (r : Register) : Orderly ctx b K S S 5 (verifyReference r) := by
  unfold verifyReference
  exact upto inferInstance (by decide)

instance : Orderly ctx b K S S 1 unreachable := by unfold unreachable; infer_instance
instance (r : Register) : Orderly ctx b K S S 1 (pushWord r) := by
  unfold pushWord; infer_instance
instance (r : Register) : Orderly ctx b K S S 1 (pushLong r) := by
  unfold pushLong; infer_instance
instance (v : FloatRegister) : Orderly ctx b K S S 1 (pushFloat v) := by
  unfold pushFloat; infer_instance
instance (v : FloatRegister) : Orderly ctx b K S S 1 (pushDouble v) := by
  unfold pushDouble; infer_instance
instance (r : Register) : Orderly ctx b K S S 1 (popInt r) := by
  unfold popInt; infer_instance
instance (r : Register) : Orderly ctx b K S S 1 (popWord r) := by
  unfold popWord; infer_instance
instance (r : Register) : Orderly ctx b K S S 1 (popLong r) := by
  unfold popLong; infer_instance
instance (v : FloatRegister) : Orderly ctx b K S S 1 (popFloat v) := by
  unfold popFloat; infer_instance
instance (v : FloatRegister) : Orderly ctx b K S S 1 (popDouble v) := by
  unfold popDouble; infer_instance

instance (t : TopOfStack) : Orderly ctx b K S S 6 (push t) := by
  cases t <;> simp only [push] <;> exact upto inferInstance (by decide)

instance (t : TopOfStack) : Orderly ctx b K S S 6 (pop t) := by
  cases t <;> simp only [pop] <;> exact upto inferInstance (by decide)

/-! ## Dispatch and frame -/

instance : Orderly ctx b K S S 1 loadDispatch := by unfold loadDispatch; infer_instance

instance (t : TopOfStack) : Orderly ctx b K S S 3 (dispatchOn t) := by
  unfold dispatchOn
  exact upto inferInstance (by decide)

instance (t : TopOfStack) (step : UInt64) : Orderly ctx b K S S 4 (dispatchNext t step) := by
  unfold dispatchNext; infer_instance

instance (t : TopOfStack) (table : UInt64) : Orderly ctx b K S S 4 (dispatchVia t table) := by
  unfold dispatchVia; infer_instance

instance : Orderly ctx b K S S 1 saveBytecode := by unfold saveBytecode; infer_instance
instance : Orderly ctx b K S S 1 restoreBytecode := by unfold restoreBytecode; infer_instance
instance : Orderly ctx b K S S 1 restoreLocals := by unfold restoreLocals; infer_instance
instance : Orderly ctx b K S S 1 restoreCache := by unfold restoreCache; infer_instance
instance (r : Register) : Orderly ctx b K S S 1 (loadMethod r) := by
  unfold loadMethod; infer_instance
instance : Orderly ctx b K S S 2 emptyOperands := by unfold emptyOperands; infer_instance
instance (extra : UInt64) : Orderly ctx b K S S 6 (restoreSp extra) := by
  unfold restoreSp; infer_instance

instance (r i : Register) (offset : UInt64) (n : Nat) :
    Orderly ctx b K S S 2 (loadCacheEntry r i offset n) := by
  unfold loadCacheEntry
  exact upto inferInstance (by decide)

instance (r : Register) (native : Bool) : Orderly ctx b K S S 21 (buildFrame r native) := by
  unfold buildFrame
  exact upto inferInstance (by decide)

instance : Orderly ctx b K S S 5 removeFrame := by unfold removeFrame; infer_instance

instance : Orderly ctx b K S S 4 verifyFrame := by
  unfold verifyFrame
  exact upto inferInstance (by decide)

/-! ## Services -/

instance (r : Register) (l : CodeLabel) [Known l K] :
    Orderly ctx b K S S 4 (setLastFrame r l) := by
  unfold setLastFrame; infer_instance

instance : Orderly ctx b K S S 3 resetLastFrame := by unfold resetLastFrame; infer_instance

instance (rs args : List Register) :
    Orderly ctx b K S S (min rs.length args.length) (passArguments rs args) := by
  unfold passArguments
  have each : ∀ x : Register × Register,
      Orderly ctx b K S S 1 (if x.1 = x.2 then Pure.pure () else mov x.1 x.2) := fun x =>
    upto inferInstance (by decide)
  exact upto (forM (rs.zip args) _ (h := each)) (by simp)

instance (r : Register) : Orderly ctx b K S S 2 (loadVmResult r) := by
  unfold loadVmResult; infer_instance

instance : Orderly ctx b K S S 4 honourPop := by
  unfold honourPop
  refine read_bind _ (h := ?_)
  cases h : ctx.popFrame with
  | none => exact upto inferInstance (by decide)
  | some l =>
    have : Reserved l ctx := ⟨h⟩
    exact upto inferInstance (by decide)

instance : Orderly ctx b K S S 4 forwardPending := by unfold forwardPending; infer_instance

instance (result : Option Register) : Orderly ctx b K S S 2 (takeResult result) := by
  cases result <;> simp only [takeResult] <;> exact upto inferInstance (by decide)

instance (result : Option Register) : Orderly ctx b K S S 15 (resumeGuest result) := by
  unfold resumeGuest
  exact upto inferInstance (by decide)

instance (result : Option Register) (s : Service) (args : List Register) :
    Orderly ctx b K S S (28 + args.length) (callVm result s args) := by
  unfold callVm
  exact upto inferInstance (by grind)

instance (s : Service) (args : List Register) :
    Orderly ctx b K S S (2 + args.length) (callLeaf s args) := by
  unfold callLeaf
  exact upto inferInstance (by omega)

instance : Orderly ctx b K S S 40 notifyEntry := by
  unfold notifyEntry
  exact upto inferInstance (by decide)

instance (t : TopOfStack) : Orderly ctx b K S S 45 (notifyExit t) := by
  unfold notifyExit
  exact upto inferInstance (by decide)

instance (r : Register) : Orderly ctx b K S S 29 (lockObject r) := by
  unfold lockObject; infer_instance

instance (r : Register) : Orderly ctx b K S S 29 (unlockObject r) := by
  unfold unlockObject; infer_instance

instance (t : TopOfStack) (policy : MonitorPolicy) (notify : Bool) :
    Orderly ctx b K S S 300 (removeActivation t policy notify) := by
  unfold removeActivation
  exact upto inferInstance (by decide)

instance (distance : UInt64) : Orderly ctx b K S S 3 (bangStack distance) := by
  unfold bangStack; infer_instance

instance : Orderly ctx b K S S 4 jumpToMethod := by unfold jumpToMethod; infer_instance

/-! ## Linked operations -/

instance (o : Opcode) (field : UInt64) (entry index : Register) :
    Orderly ctx b K S S 40 (Emit.resolveEntry o field entry index) := by
  unfold Emit.resolveEntry
  exact upto inferInstance (by decide)

instance (entry tos : Register) : Orderly ctx b K S S 3 (loadFieldEntry entry tos) := by
  unfold loadFieldEntry; infer_instance

instance (tos : Register) (code : TopOfStack → Emit Unit)
    [h : ∀ K S t, Orderly ctx b K S S n (code t)] :
    Orderly ctx b K S S (9 * (n + 3) + 1) (switchState tos code) := by
  unfold switchState
  exact upto inferInstance (by simp [fieldStates]; omega)

instance (t : TopOfStack) : Orderly ctx b K S S 1 (readField t) := by
  cases t <;> simp only [readField] <;> infer_instance

instance (tos : Register) (pushed : Bool) : Orderly ctx b K S S 91 (loadField tos pushed) := by
  unfold loadField
  exact upto inferInstance (by decide)

instance (object offset : Register) :
    Orderly ctx b K S S 15 (Emit.markBarrier object offset) := by
  unfold Emit.markBarrier
  exact upto inferInstance (by decide)

instance (t : TopOfStack) : Orderly ctx b K S S 16 (writeField t) := by
  cases t <;> simp only [writeField] <;> exact upto inferInstance (by decide)

instance (tos : Register) : Orderly ctx b K S S 240 (storeField tos) := by
  unfold storeField
  exact upto inferInstance (by decide)

/-! ## Templates -/

open Template

instance (k : UInt64) : Orderly ctx b K S S 1 (intConstant k) := by
  unfold intConstant
  exact upto inferInstance (by decide)

instance (p : Precision) (bits : UInt64) : Orderly ctx b K S S 2 (floatConstant p bits) := by
  unfold floatConstant; infer_instance

instance (r low : Register) : Orderly ctx b K S S 4 (signedPair r low) := by
  unfold signedPair; infer_instance

instance : Orderly ctx b K S S 2 localAddress := by unfold localAddress; infer_instance

instance (access : Emit Unit) [Orderly ctx b K S S n access] :
    Orderly ctx b K S S (2 + n) (onLocal access) := by
  unfold onLocal; infer_instance

instance : Orderly ctx b K S S 7 increment := by unfold increment; infer_instance

instance (op : Emit Unit) [Orderly ctx b K S S n op] :
    Orderly ctx b K S S (1 + (n + 1)) (intOperation op) := by
  unfold intOperation; infer_instance

instance (e : ExceptionEntries) : Orderly ctx b K S S 5 (divide e) := by
  unfold divide; infer_instance

instance : Orderly ctx b K S S 9 takeBranch := by unfold takeBranch; infer_instance

instance (c : Condition) : Orderly ctx b K S S 10 (branchIf c) := by
  unfold branchIf; infer_instance

instance (c : Condition) : Orderly ctx b K S S 11 (branchZero c) := by
  unfold branchZero; infer_instance

instance (c : Condition) : Orderly ctx b K S S 12 (branchInts c) := by
  unfold branchInts; infer_instance

instance (t : TopOfStack) : Orderly ctx b K S S 310 (returnValue t) := by
  unfold returnValue
  exact upto inferInstance (by decide)

instance (o : Opcode) (row : UInt64) : Orderly ctx b K S S 60 (invoke o row) := by
  unfold invoke
  exact upto inferInstance (by decide)

instance : Orderly ctx b K S S 60 invokeSite := by
  unfold invokeSite
  exact upto inferInstance (by decide)

instance : Orderly ctx b K S S 140 getField := by
  unfold getField
  exact upto inferInstance (by decide)

instance : Orderly ctx b K S S 290 putField := by
  unfold putField
  exact upto inferInstance (by decide)

instance : Orderly ctx b K S S 80 newObject := by
  unfold newObject
  exact upto inferInstance (by decide)

instance : Orderly ctx b K S S 40 newPrimitiveArray := by
  unfold newPrimitiveArray
  exact upto inferInstance (by decide)

instance (e : ExceptionEntries) (array index : Register) :
    Orderly ctx b K S S 5 (checkIndex e array index) := by
  unfold checkIndex
  exact upto inferInstance (by decide)

instance (e : ExceptionEntries) : Orderly ctx b K S S 8 (loadElement e) := by
  unfold loadElement; infer_instance

instance (e : ExceptionEntries) : Orderly ctx b K S S 9 (storeElement e) := by
  unfold storeElement; infer_instance

instance (e : ExceptionEntries) : Orderly ctx b K S S 8 (throwObject e) := by
  unfold throwObject; infer_instance

instance (e : ExceptionEntries) : Orderly ctx b K S S 60 (checkCast e) := by
  unfold checkCast
  exact upto inferInstance (by decide)

instance (e : ExceptionEntries) (r : Register) : Orderly ctx b K S S 2 (checkNull e r) := by
  unfold checkNull; infer_instance

instance : Orderly ctx b K S S 12 findFreeMonitor := by
  unfold findFreeMonitor; infer_instance

instance : Orderly ctx b K S S 12 growMonitors := by unfold growMonitors; infer_instance

instance (e : ExceptionEntries) : Orderly ctx b K S S 80 (enterMonitor e) := by
  unfold enterMonitor
  exact upto inferInstance (by decide)

instance (e : ExceptionEntries) : Orderly ctx b K S S 90 (exitMonitor e) := by
  unfold exitMonitor
  exact upto inferInstance (by decide)

/-- The code of a template. -/
instance template (e : ExceptionEntries) (o : Opcode) :
    Orderly ctx b K S S 320 (ofOpcode e o).code := by
  cases o <;> simp only [ofOpcode, falling, leaving] <;> exact upto inferInstance (by decide)

/-! ## Method entries -/

/-- Room for touching the shadow pages. -/
def bangs (ctx : CodeContext) : Nat := 3 * ctx.settings.shadowPages.toNat + 3

instance (l : CodeLabel) [Known l K] : Orderly ctx b K S S 6 (countInvocation l) := by
  unfold countInvocation; infer_instance

instance (l : CodeLabel) [Known l K] : Orderly ctx b K S S 30 (reportOverflow l) := by
  unfold reportOverflow
  exact upto inferInstance (by decide)

instance (p : UInt64) : Orderly ctx b K S S 19 (checkStack p) := by
  unfold checkStack
  exact upto inferInstance (by decide)

instance (native : Bool) : Orderly ctx b K S S (bangs ctx) (bangShadow native) := by
  unfold bangShadow
  refine upto inferInstance ?_
  simp only [List.length_range', bangs]
  split <;> omega

instance (r : Register) : Orderly ctx b K S S 4 (loadClassObject r) := by
  unfold loadClassObject; infer_instance

instance : Orderly ctx b K S S 50 lockMethod := by
  unfold lockMethod
  exact upto inferInstance (by decide)

instance : Orderly ctx b K S S 5 checkUnsynchronized := by
  unfold checkUnsynchronized
  exact upto inferInstance (by decide)

instance (native sync : Bool) (overflow continuation : CodeLabel) [Known overflow K]
    [Taken continuation S T] :
    Orderly ctx b K S T (bangs ctx + 60) (prologue native sync overflow continuation) := by
  unfold prologue
  exact upto inferInstance (by grind)

instance (sync : Bool) (p : UInt64) : Orderly ctx b K S S (bangs ctx + 300) (normalEntry sync p) := by
  unfold normalEntry
  exact upto inferInstance (by grind)

instance (l : CodeLabel) [Known l K] : Orderly ctx b K S S 3 (unlessSafepoint l) := by
  unfold unlessSafepoint; infer_instance

instance (p : UInt64) : Orderly ctx b K S S 10 (emptyEntry p) := by
  unfold emptyEntry
  exact upto inferInstance (by decide)

instance (p : UInt64) : Orderly ctx b K S S 130 (accessorEntry p) := by
  unfold accessorEntry
  exact upto inferInstance (by decide)

instance (p : UInt64) : Orderly ctx b K S S 2 (abstractEntry p) := by
  unfold abstractEntry; infer_instance

instance (p : UInt64) : Orderly ctx b K S S 20 (methodHandleEntry p) := by
  unfold methodHandleEntry
  exact upto inferInstance (by decide)

instance (op : FloatUnary) : Orderly ctx b K S S 4 (unaryMathEntry op) := by
  unfold unaryMathEntry; infer_instance

instance (s : Service) : Orderly ctx b K S S 10 (mathEntry s) := by
  unfold mathEntry
  exact upto inferInstance (by decide)

instance (p : UInt64) : Orderly ctx b K S S 30 (referenceGetEntry p) := by
  unfold referenceGetEntry
  exact upto inferInstance (by decide)

instance (t : TypeTag) : Orderly ctx b K S S 8 (resultHandler t) := by
  cases t <;> simp only [resultHandler] <;> exact upto inferInstance (by decide)

instance : Orderly ctx false K S S 80 resultHandlers := by
  unfold resultHandlers
  exact upto inferInstance (by decide)

instance (s : ThreadState) : Orderly ctx b K S S 2 (setThreadState s) := by
  unfold setThreadState; infer_instance

instance : Orderly ctx b K S S 40 linkNative := by
  unfold linkNative
  exact upto inferInstance (by decide)

instance : Orderly ctx b K S S 20 passNativeArguments := by
  unfold passNativeArguments
  exact upto inferInstance (by decide)

instance : Orderly ctx b K S S 60 leaveMachine := by
  unfold leaveMachine
  exact upto inferInstance (by decide)

instance (p : UInt64) : Orderly ctx b K S S 25 (unboxResult p) := by
  unfold unboxResult
  exact upto inferInstance (by decide)

instance : Orderly ctx b K S S 10 reguard := by
  unfold reguard
  exact upto inferInstance (by decide)

instance : Orderly ctx b K S S 3 pretendBytecode := by unfold pretendBytecode; infer_instance

instance : Orderly ctx b K S S 40 throwPending := by
  unfold throwPending
  exact upto inferInstance (by decide)

instance : Orderly ctx b K S S 70 unlockMethod := by
  unfold unlockMethod
  exact upto inferInstance (by decide)

instance (sync : Bool) (p : UInt64) : Orderly ctx b K S S (bangs ctx + 600) (nativeEntry sync p) := by
  unfold nativeEntry
  exact upto inferInstance (by grind)

instance (stubs : Stubs) (p q : UInt64) (kind : EntryKind) :
    Orderly ctx b K S S (bangs ctx + 600) (entryCode stubs p q kind) := by
  cases kind <;> simp only [entryCode] <;> exact upto inferInstance (by grind)

instance (stubs : Stubs) (p q : UInt64) (kind : EntryKind) :
    Orderly ctx false K S S (bangs ctx + 600) (Emit.methodEntry stubs p q kind) := by
  unfold Emit.methodEntry
  exact upto inferInstance (by grind)

instance (stubs : Stubs) (p : UInt64) :
    Orderly ctx false K S S (30 * (bangs ctx + 600)) (Emit.methodEntries stubs p) := by
  unfold Emit.methodEntries
  have kinds : (EntryKind.all.drop 1).length = 17 := rfl
  exact upto inferInstance (by rw [kinds]; omega)

/-! ## Returns, safepoints and exceptions -/

instance (t : TopOfStack) (length : UInt64) (bytes : Nat) :
    Orderly ctx b K S S 30 (returnEntry t length bytes) := by
  unfold returnEntry
  exact upto inferInstance (by decide)

instance : Orderly ctx false K S S 600 returnEntries := by
  unfold returnEntries
  exact upto inferInstance (by decide)

instance (t : TopOfStack) : Orderly ctx b K S S 50 (safepointEntry t) := by
  unfold safepointEntry
  exact upto inferInstance (by decide)

instance : Orderly ctx false K S S 500 safepointEntries := by
  unfold safepointEntries
  exact upto inferInstance (by decide)

open ExceptionEntries

instance (here : CodeLabel) [Taken here S T] : Orderly ctx b K S T 700 (popFrameCode here) := by
  unfold popFrameCode
  exact upto inferInstance (by decide)

instance : Orderly ctx b K S S 400 handling := by
  unfold handling
  exact upto inferInstance (by decide)

instance (e : BuiltinException) (message p : UInt64) :
    Orderly ctx b K S S 50 (creating e message p) := by
  unfold creating
  exact upto inferInstance (by decide)

instance (popFrame : CodeLabel) [Taken popFrame S T] :
    Orderly ctx false K S T 1500 (ExceptionEntries.all popFrame) := by
  unfold ExceptionEntries.all
  exact upto inferInstance (by decide)

/-! ## Stubs -/

open Stubs

instance : Orderly ctx b K S S 60 callCode := by
  unfold callCode
  exact upto inferInstance (by decide)

instance : Orderly ctx b K S S 30 forward := by
  unfold forward
  exact upto inferInstance (by decide)

instance (s : Service) (p : UInt64) : Orderly ctx b K S S 20 (Stubs.throwing s p) := by
  unfold Stubs.throwing
  exact upto inferInstance (by decide)

instance : Orderly ctx false K S S 150 Stubs.all := by
  unfold Stubs.all
  exact upto inferInstance (by decide)

/-! ## Dispatch -/

instance (a : UInt64) : Orderly ctx b K S S 3 (countAt a) := by unfold countAt; infer_instance

instance (k : UInt64) : Orderly ctx b K S S 6 (stopAtCount k) := by
  unfold stopAtCount; infer_instance

instance (t : TopOfStack) : Orderly ctx b K S S 40 (traceEntry t) := by
  unfold traceEntry
  exact upto inferInstance (by decide)

instance : Orderly ctx false K S S 400 tracing := by
  unfold tracing
  exact upto inferInstance (by decide)

instance : Orderly ctx false K S S 400 traceEntries := by
  unfold traceEntries
  exact upto inferInstance (by decide)

instance (o : Opcode) (t : TopOfStack) (trace : EntryPoint) :
    Orderly ctx b K S S 14 (beforeTemplate o t trace) := by
  unfold beforeTemplate
  exact upto inferInstance (by decide)

instance (e : ExceptionEntries) (o : Opcode) (trace : EntryPoint) :
    Orderly ctx b K S S 340 (templateCode o (Template.ofOpcode e o) trace) := by
  unfold templateCode
  exact upto inferInstance (by decide)

instance : Orderly ctx b K S S 9 pushingEntries := by unfold pushingEntries; infer_instance

instance (p : UInt64) (t : TopOfStack) : Orderly ctx b K S S 9 (stateEntries p t) := by
  unfold stateEntries
  exact upto inferInstance (by decide)

instance (e : ExceptionEntries) (p : UInt64) (trace : EntryPoint) (o : Opcode) :
    Orderly ctx false K S S 350 (Emit.entryPoint e p trace o) := by
  unfold Emit.entryPoint
  exact upto inferInstance (by decide)

instance (e : ExceptionEntries) (p : UInt64) (trace : EntryPoint) :
    Orderly ctx false K S S 40000 (Emit.entryPoints e p trace) := by
  unfold Emit.entryPoints
  have opcodes : Opcode.all.toList.length = 90 := rfl
  exact upto inferInstance (by rw [opcodes]; decide)

instance (stubs : Stubs) (popFrame : CodeLabel) [Taken popFrame S T] :
    Orderly ctx false K S T (30 * bangs ctx + 70000) (Image.parts stubs popFrame) := by
  unfold Image.parts
  exact upto inferInstance (by grind)

end TemplateVm.Orderly
