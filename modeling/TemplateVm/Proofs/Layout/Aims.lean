import TemplateVm.Image
import TemplateVm.Proofs.Layout.Targets

set_option autoImplicit false
-- an instance counts as twice the size with every further instruction
set_option synthInstance.maxSize 1000000000000000000000000

/-!
# All generated code goes where it should

The instances follow those of `Orderly`, function by function. Code that is handed addresses needs
them to be code; whatever calls a service needs the address where exceptions are forwarded.
-/
namespace TemplateVm.Aims

open Emit

variable {G : UInt64 → Prop} {R : List Register} {ctx : CodeContext}

/-! ## The operand stack -/

section
variable [Varying .scratch1 R]

instance (r : Register) : Aims G R true ctx (verifyReference r) := by
  unfold verifyReference; infer_instance

instance : Aims G R true ctx unreachable := by unfold unreachable; infer_instance
instance (r : Register) : Aims G R true ctx (pushWord r) := by unfold pushWord; infer_instance
instance (r : Register) : Aims G R true ctx (pushLong r) := by unfold pushLong; infer_instance
instance (v : FloatRegister) : Aims G R true ctx (pushFloat v) := by
  unfold pushFloat; infer_instance
instance (v : FloatRegister) : Aims G R true ctx (pushDouble v) := by
  unfold pushDouble; infer_instance
instance (r : Register) : Aims G R true ctx (popInt r) := by unfold popInt; infer_instance
instance (r : Register) : Aims G R true ctx (popWord r) := by unfold popWord; infer_instance
instance (r : Register) : Aims G R true ctx (popLong r) := by unfold popLong; infer_instance
instance (v : FloatRegister) : Aims G R true ctx (popFloat v) := by
  unfold popFloat; infer_instance
instance (v : FloatRegister) : Aims G R true ctx (popDouble v) := by
  unfold popDouble; infer_instance

instance (t : TopOfStack) : Aims G R true ctx (push t) := by
  cases t <;> simp only [push] <;> infer_instance

instance (t : TopOfStack) : Aims G R true ctx (pop t) := by
  cases t <;> simp only [pop] <;> infer_instance

/-! ## Dispatch and frame -/

instance (t : TopOfStack) : Aims G R true ctx (dispatchOn t) := by
  unfold dispatchOn; infer_instance

instance (t : TopOfStack) (step : UInt64) : Aims G R true ctx (dispatchNext t step) := by
  unfold dispatchNext; infer_instance

instance : Aims G R true ctx saveBytecode := by unfold saveBytecode; infer_instance
instance : Aims G R true ctx restoreBytecode := by unfold restoreBytecode; infer_instance
instance : Aims G R true ctx restoreLocals := by unfold restoreLocals; infer_instance
instance : Aims G R true ctx restoreCache := by unfold restoreCache; infer_instance
instance (r : Register) : Aims G R true ctx (loadMethod r) := by
  unfold loadMethod; infer_instance
instance : Aims G R true ctx emptyOperands := by unfold emptyOperands; infer_instance
instance (extra : UInt64) : Aims G R true ctx (restoreSp extra) := by
  unfold restoreSp; infer_instance

instance (r i : Register) (offset : UInt64) (n : Nat) :
    Aims G R true ctx (loadCacheEntry r i offset n) := by
  unfold loadCacheEntry; infer_instance

instance (r : Register) (native : Bool) : Aims G R true ctx (buildFrame r native) := by
  unfold buildFrame; infer_instance

instance : Aims G R true ctx removeFrame := by unfold removeFrame; infer_instance

instance : Aims G R true ctx verifyFrame := by unfold verifyFrame; infer_instance

/-! ## Services -/

instance (r : Register) (l : CodeLabel) : Aims G R true ctx (setLastFrame r l) := by
  unfold setLastFrame; infer_instance

instance : Aims G R true ctx resetLastFrame := by unfold resetLastFrame; infer_instance

instance (rs args : List Register) : Aims G R true ctx (passArguments rs args) := by
  unfold passArguments; infer_instance

instance (r : Register) : Aims G R true ctx (loadVmResult r) := by
  unfold loadVmResult; infer_instance

instance : Aims G R true ctx honourPop := by
  unfold honourPop
  refine read_bind _ (h := ?_)
  cases ctx.popFrame <;> infer_instance

instance (s : Service) (args : List Register) : Aims G R true ctx (callLeaf s args) := by
  unfold callLeaf; infer_instance

instance (result : Option Register) : Aims G R true ctx (takeResult result) := by
  cases result <;> simp only [takeResult] <;> infer_instance

variable [Code G ctx.forwardException]

instance : Aims G R true ctx forwardPending := by unfold forwardPending; infer_instance

instance (result : Option Register) : Aims G R true ctx (resumeGuest result) := by
  unfold resumeGuest; infer_instance

instance (result : Option Register) (s : Service) (args : List Register) :
    Aims G R true ctx (callVm result s args) := by
  unfold callVm; infer_instance

instance (r : Register) : Aims G R true ctx (lockObject r) := by
  unfold lockObject; infer_instance

instance (r : Register) : Aims G R true ctx (unlockObject r) := by
  unfold unlockObject; infer_instance

end

/-! ## Debugger and the end of an activation -/

/-- Return addresses and what is kept over a call are not constants. -/
abbrev handed : List Register := [.link, .x19]

instance : Varying .scratch1 handed := ⟨by decide⟩
instance : Varying .scratch2 handed := ⟨by decide⟩
instance : Varying .dispatch handed := ⟨by decide⟩
instance : Varying .x0 handed := ⟨by decide⟩
instance : Varying .x1 handed := ⟨by decide⟩
instance : Varying .x2 handed := ⟨by decide⟩

instance : Aims G handed true ctx loadDispatch := by unfold loadDispatch; infer_instance

instance (t : TopOfStack) (table : UInt64) : Aims G handed true ctx (dispatchVia t table) := by
  unfold dispatchVia; infer_instance

instance (distance : UInt64) : Aims G handed true ctx (bangStack distance) := by
  unfold bangStack; infer_instance

instance : Aims G handed true ctx jumpToMethod := by unfold jumpToMethod; infer_instance

section
variable [Code G ctx.forwardException]

instance : Aims G handed true ctx notifyEntry := by unfold notifyEntry; infer_instance

instance (t : TopOfStack) : Aims G handed true ctx (notifyExit t) := by
  unfold notifyExit; infer_instance

instance (t : TopOfStack) (policy : MonitorPolicy) (notify : Bool) :
    Aims G handed true ctx (removeActivation t policy notify) := by
  unfold removeActivation; infer_instance

/-! ## Linked operations -/

instance (o : Opcode) (field : UInt64) (entry index : Register) :
    Aims G handed true ctx (Emit.resolveEntry o field entry index) := by
  unfold Emit.resolveEntry; infer_instance

end

instance (entry tos : Register) : Aims G handed true ctx (loadFieldEntry entry tos) := by
  unfold loadFieldEntry; infer_instance

instance (tos : Register) (code : TopOfStack → Emit Unit)
    [∀ t, Aims G handed true ctx (code t)] : Aims G handed true ctx (switchState tos code) := by
  unfold switchState; infer_instance

instance (t : TopOfStack) : Aims G handed true ctx (readField t) := by
  cases t <;> simp only [readField] <;> infer_instance

instance (tos : Register) (pushed : Bool) : Aims G handed true ctx (loadField tos pushed) := by
  unfold loadField; infer_instance

instance (object offset : Register) : Aims G handed true ctx (Emit.markBarrier object offset) := by
  unfold Emit.markBarrier; infer_instance

instance (t : TopOfStack) : Aims G handed true ctx (writeField t) := by
  cases t <;> simp only [writeField] <;> infer_instance

instance (tos : Register) : Aims G handed true ctx (storeField tos) := by
  unfold storeField; infer_instance

/-! ## Templates -/

section
open Template

instance (k : UInt64) : Aims G handed true ctx (intConstant k) := by
  unfold intConstant; infer_instance

instance (p : Precision) (bits : UInt64) : Aims G handed true ctx (floatConstant p bits) := by
  unfold floatConstant; infer_instance

instance (r low : Register) : Aims G handed true ctx (signedPair r low) := by
  unfold signedPair; infer_instance

instance : Aims G handed true ctx localAddress := by unfold localAddress; infer_instance

instance (access : Emit Unit) [Aims G handed true ctx access] :
    Aims G handed true ctx (onLocal access) := by
  unfold onLocal; infer_instance

instance : Aims G handed true ctx increment := by unfold increment; infer_instance

instance (op : Emit Unit) [Aims G handed true ctx op] :
    Aims G handed true ctx (intOperation op) := by
  unfold intOperation; infer_instance

instance : Aims G handed true ctx takeBranch := by unfold takeBranch; infer_instance

instance (c : Condition) : Aims G handed true ctx (branchIf c) := by
  unfold branchIf; infer_instance

instance (c : Condition) : Aims G handed true ctx (branchZero c) := by
  unfold branchZero; infer_instance

instance (c : Condition) : Aims G handed true ctx (branchInts c) := by
  unfold branchInts; infer_instance

instance : Aims G handed true ctx findFreeMonitor := by unfold findFreeMonitor; infer_instance

instance : Aims G handed true ctx growMonitors := by unfold growMonitors; infer_instance

variable [Code G ctx.forwardException]

instance (t : TopOfStack) : Aims G handed true ctx (returnValue t) := by
  unfold returnValue; infer_instance

instance (o : Opcode) (row : UInt64) : Aims G handed true ctx (invoke o row) := by
  unfold invoke; infer_instance

instance : Aims G handed true ctx invokeSite := by unfold invokeSite; infer_instance

instance : Aims G handed true ctx getField := by unfold getField; infer_instance

instance : Aims G handed true ctx putField := by unfold putField; infer_instance

instance : Aims G handed true ctx newObject := by unfold newObject; infer_instance

instance : Aims G handed true ctx newPrimitiveArray := by
  unfold newPrimitiveArray; infer_instance

/-- The entries at which templates raise exceptions are code. -/
class Entries (G : UInt64 → Prop) (e : ExceptionEntries) : Prop where
  throwException : G e.throwException
  throwArrayIndex : G e.throwArrayIndex
  throwClassCast : G e.throwClassCast
  throwArithmetic : G e.throwArithmetic
  throwNullPointer : G e.throwNullPointer

variable (e : ExceptionEntries) [h : Entries G e]

instance : Code G e.throwException := ⟨h.throwException⟩
instance : Code G e.throwArrayIndex := ⟨h.throwArrayIndex⟩
instance : Code G e.throwClassCast := ⟨h.throwClassCast⟩
instance : Code G e.throwArithmetic := ⟨h.throwArithmetic⟩
instance : Code G e.throwNullPointer := ⟨h.throwNullPointer⟩

omit [Code G ctx.forwardException] in
instance : Aims G handed true ctx (divide e) := by unfold divide; infer_instance

instance (array index : Register) : Aims G handed true ctx (checkIndex e array index) := by
  unfold checkIndex; infer_instance

instance : Aims G handed true ctx (loadElement e) := by unfold loadElement; infer_instance

instance : Aims G handed true ctx (storeElement e) := by unfold storeElement; infer_instance

instance : Aims G handed true ctx (throwObject e) := by unfold throwObject; infer_instance

instance : Aims G handed true ctx (checkCast e) := by unfold checkCast; infer_instance

instance (r : Register) : Aims G handed true ctx (checkNull e r) := by
  unfold checkNull; infer_instance

instance : Aims G handed true ctx (enterMonitor e) := by unfold enterMonitor; infer_instance

instance : Aims G handed true ctx (exitMonitor e) := by unfold exitMonitor; infer_instance

/-- The code of a template. -/
instance template (o : Opcode) : Aims G handed true ctx (ofOpcode e o).code := by
  cases o <;> simp only [ofOpcode, falling, leaving] <;> infer_instance

end

/-! ## Method entries -/

instance (l : CodeLabel) : Aims G handed true ctx (countInvocation l) := by
  unfold countInvocation; infer_instance

instance (p : UInt64) [Code G p] : Aims G handed true ctx (checkStack p) := by
  unfold checkStack; infer_instance

instance (native : Bool) : Aims G handed true ctx (bangShadow native) := by
  unfold bangShadow; infer_instance

instance (r : Register) : Aims G handed true ctx (loadClassObject r) := by
  unfold loadClassObject; infer_instance

instance : Aims G handed true ctx checkUnsynchronized := by
  unfold checkUnsynchronized; infer_instance

instance (l : CodeLabel) : Aims G handed true ctx (unlessSafepoint l) := by
  unfold unlessSafepoint; infer_instance

instance (p : UInt64) [Code G p] : Aims G handed true ctx (emptyEntry p) := by
  unfold emptyEntry; infer_instance

instance (p : UInt64) [Code G p] : Aims G handed true ctx (accessorEntry p) := by
  unfold accessorEntry; infer_instance

instance (p : UInt64) [Code G p] : Aims G handed true ctx (abstractEntry p) := by
  unfold abstractEntry; infer_instance

instance (p : UInt64) [Code G p] : Aims G handed true ctx (methodHandleEntry p) := by
  unfold methodHandleEntry; infer_instance

instance (op : FloatUnary) : Aims G handed true ctx (unaryMathEntry op) := by
  unfold unaryMathEntry; infer_instance

instance (s : Service) : Aims G handed true ctx (mathEntry s) := by
  unfold mathEntry; infer_instance

instance (p : UInt64) [Code G p] : Aims G handed true ctx (referenceGetEntry p) := by
  unfold referenceGetEntry; infer_instance

instance (t : TypeTag) : Aims G handed true ctx (resultHandler t) := by
  cases t <;> simp only [resultHandler] <;> infer_instance

instance : Aims G handed false ctx resultHandlers := by unfold resultHandlers; infer_instance

instance (s : ThreadState) : Aims G handed true ctx (setThreadState s) := by
  unfold setThreadState; infer_instance

instance : Aims G handed true ctx passNativeArguments := by
  unfold passNativeArguments; infer_instance

instance : Aims G handed true ctx leaveMachine := by unfold leaveMachine; infer_instance

instance (p : UInt64) : Aims G handed true ctx (unboxResult p) := by
  unfold unboxResult; infer_instance

instance : Aims G handed true ctx reguard := by unfold reguard; infer_instance

instance : Aims G handed true ctx pretendBytecode := by unfold pretendBytecode; infer_instance

section
variable [Code G ctx.forwardException]

instance (l : CodeLabel) : Aims G handed true ctx (reportOverflow l) := by
  unfold reportOverflow; infer_instance

instance : Aims G handed true ctx lockMethod := by unfold lockMethod; infer_instance

instance (native sync : Bool) (overflow continuation : CodeLabel) :
    Aims G handed true ctx (prologue native sync overflow continuation) := by
  unfold prologue; infer_instance

instance (sync : Bool) (p : UInt64) [Code G p] : Aims G handed true ctx (normalEntry sync p) := by
  unfold normalEntry; infer_instance

instance : Aims G handed true ctx linkNative := by unfold linkNative; infer_instance

instance : Aims G handed true ctx throwPending := by unfold throwPending; infer_instance

instance : Aims G handed true ctx unlockMethod := by unfold unlockMethod; infer_instance

instance (sync : Bool) (p : UInt64) : Aims G handed true ctx (nativeEntry sync p) := by
  unfold nativeEntry; infer_instance

/-! ## Returns, safepoints and exceptions -/

omit [Code G ctx.forwardException] in
instance (t : TopOfStack) (length : UInt64) (bytes : Nat) :
    Aims G handed true ctx (returnEntry t length bytes) := by
  unfold returnEntry; infer_instance

omit [Code G ctx.forwardException] in
instance : Aims G handed false ctx returnEntries := by unfold returnEntries; infer_instance

instance (t : TopOfStack) : Aims G handed true ctx (safepointEntry t) := by
  unfold safepointEntry; infer_instance

instance : Aims G handed false ctx safepointEntries := by
  unfold safepointEntries; infer_instance

open ExceptionEntries

instance (here : CodeLabel) : Aims G handed true ctx (popFrameCode here) := by
  unfold popFrameCode; infer_instance

instance (e : BuiltinException) (message p : UInt64) [Code G p] :
    Aims G handed true ctx (creating e message p) := by
  unfold creating; infer_instance

/-! ## Dispatch -/

omit [Code G ctx.forwardException] in
instance (a : UInt64) : Aims G handed true ctx (countAt a) := by unfold countAt; infer_instance

omit [Code G ctx.forwardException] in
instance (k : UInt64) : Aims G handed true ctx (stopAtCount k) := by
  unfold stopAtCount; infer_instance

instance (t : TopOfStack) : Aims G handed true ctx (traceEntry t) := by
  unfold traceEntry; infer_instance

instance : Aims G handed false ctx tracing := by unfold tracing; infer_instance

instance : Aims G handed false ctx traceEntries := by unfold traceEntries; infer_instance

/-- Where bytecodes are traced, the entries for that are code. -/
class Traced (G : UInt64 → Prop) (ctx : CodeContext) (trace : EntryPoint) : Prop where
  traced : ctx.settings.traceBytecodes = true → ∀ tos, G (trace.get tos)

omit [Code G ctx.forwardException] in
instance (o : Opcode) (t : TopOfStack) (trace : EntryPoint) [h : Traced G ctx trace] :
    Aims G handed true ctx (beforeTemplate o t trace) := by
  unfold beforeTemplate
  refine settings_bind _ (h := ?_)
  by_cases on : ctx.settings.traceBytecodes = true
  · have : Code G (trace.get t) := ⟨h.traced on t⟩
    infer_instance
  · simp only [on, Emit.whenM, Bool.false_eq_true, if_false]
    infer_instance

section
variable (e : ExceptionEntries) [Entries G e] (trace : EntryPoint) [Traced G ctx trace]

instance (o : Opcode) : Aims G handed true ctx
    (templateCode o (Template.ofOpcode e o) trace) := by
  unfold templateCode; infer_instance

omit [Code G ctx.forwardException] in
instance : Aims G handed true ctx pushingEntries := by unfold pushingEntries; infer_instance

omit [Code G ctx.forwardException] in
instance (p : UInt64) (t : TopOfStack) : Aims G handed true ctx (stateEntries p t) := by
  unfold stateEntries; infer_instance

instance (p : UInt64) (o : Opcode) : Aims G handed false ctx (Emit.entryPoint e p trace o) := by
  unfold Emit.entryPoint; infer_instance

instance (p : UInt64) : Aims G handed false ctx (Emit.entryPoints e p trace) := by
  unfold Emit.entryPoints; infer_instance

end

/-! ## Entries of all kinds -/

/-- The stubs that throw exceptions at the entry of a method are code. -/
class Throwing (G : UInt64 → Prop) (stubs : Stubs) : Prop where
  throwStackOverflow : G stubs.throwStackOverflow
  throwAbstractMethod : G stubs.throwAbstractMethod
  throwNullPointer : G stubs.throwNullPointer

section
variable (stubs : Stubs) [h : Throwing G stubs]

instance : Code G stubs.throwStackOverflow := ⟨h.throwStackOverflow⟩
instance : Code G stubs.throwAbstractMethod := ⟨h.throwAbstractMethod⟩
instance : Code G stubs.throwNullPointer := ⟨h.throwNullPointer⟩

instance (p q : UInt64) [Code G q] (kind : EntryKind) :
    Aims G handed true ctx (entryCode stubs p q kind) := by
  cases kind <;> simp only [entryCode] <;> infer_instance

instance (p q : UInt64) [Code G q] (kind : EntryKind) :
    Aims G handed false ctx (Emit.methodEntry stubs p q kind) := by
  unfold Emit.methodEntry; infer_instance

/-- The entry of ordinary methods is made first, and does not refer to itself. -/
instance normal (p q : UInt64) :
    Aims G handed false ctx (Emit.methodEntry stubs p q .normal) := by
  unfold Emit.methodEntry
  simp only [entryCode]
  infer_instance

end

end

/-! ## Branches to what is handed over -/

section
variable {α β : Type} {r : Register}

/-- Code that leaves a register without a constant, then code that branches to the register. -/
theorem handing {m : Emit Unit} {g : Unit → Emit α} {f : α → Emit β}
    (frees : ∀ a a', Assembly.Aimed G R true a → m ctx a = .ok () a' →
      Assembly.Aimed G (r :: R) true a' ∧ Assembly.Precedes a a')
    [hr : Aims G (r :: R) true ctx (g ())] [hf : ∀ x, Aims G R true ctx (f x)] :
    Aims G R true ctx (m >>= fun x => g x >>= f) where
  aims a y a' h run := by
    obtain ⟨⟨⟩, a₁, first, run⟩ := run_of_bind run
    obtain ⟨aimed₁, le₁⟩ := frees a a₁ h first
    obtain ⟨x, a₂, -, aimed₂, le₂, run⟩ := split aimed₁ run
    obtain ⟨aimed, le⟩ :=
      (hf x).aims a₂ y a' (aimed₂.of_subset (List.subset_cons_self r R)) run
    exact ⟨aimed, le₁.trans (le₂.trans le)⟩

/-- A service leaves its result where there was no constant before. -/
theorem callVm_frees [Code G ctx.forwardException] {result : Option Register} {s : Service}
    {args : List Register} (a a' : Assembly) (h : Assembly.Aimed G handed true a)
    (run : callVm result s args ctx a = .ok () a') :
    Assembly.Aimed G (.x0 :: handed) true a' ∧ Assembly.Precedes a a' := by
  have scratch : Varying .scratch1 (.x0 :: handed) := ⟨by decide⟩
  unfold callVm at run
  obtain ⟨⟨⟩, a₁, -, h₁, le₁, run⟩ := split h run
  obtain ⟨⟨⟩, a₂, -, h₂, le₂, run⟩ := split h₁ run
  obtain ⟨⟨⟩, a₃, -, h₃, le₃, run⟩ := split h₂ run
  obtain ⟨resume, a₄, -, h₄, le₄, run⟩ := split h₃ run
  obtain ⟨⟨⟩, a₅, -, h₅, le₅, run⟩ := split h₄ run
  obtain ⟨⟨⟩, a₆, call, run⟩ := run_of_bind
    (m := movImm .scratch1 s.address >>= fun _ => blr .scratch1)
    (f := fun _ => Emit.bind resume >>= fun _ => resumeGuest result) run
  obtain ⟨h₆, -, -, le₆⟩ := pair_run (T := .x0 :: handed) h₅ (by decide) call
  obtain ⟨⟨⟩, a₇, -, h₇, le₇, run⟩ := split h₆ run
  obtain ⟨h', le⟩ := Aims.aims a₇ () a' h₇ run
  exact ⟨h', le₁.trans <| le₂.trans <| le₃.trans <| le₄.trans <| le₅.trans <| le₆.trans <|
    le₇.trans le⟩

/-- The handler that a service has found. -/
instance (priority := high) toHandler [Code G ctx.forwardException] (result : Option Register)
    (s : Service) (args : List Register) (extra : UInt64) (pushed : Register) (f : Unit → Emit β)
    [∀ x, Aims G handed true ctx (f x)] : Aims G handed true ctx (do
      callVm result s args
      restoreSp extra
      pushWord pushed
      br .x0 >>= f) :=
  have : Varying .scratch1 (.x0 :: handed) := ⟨by decide⟩
  handing (g := fun _ => do restoreSp extra; pushWord pushed; br .x0) callVm_frees

/-- A handler that is kept while its argument is put into place. -/
instance (priority := high) toKept (addr : Address) (f : Unit → Emit β)
    [∀ x, Aims G handed true ctx (f x)] : Aims G handed true ctx (do
      mov .x1 .x0
      ldp .x0 .link addr
      mov .x3 .link
      br .x1 >>= f) := by
  refine handing (r := .x1) (g := fun _ => do ldp .x0 .link addr; mov .x3 .link; br .x1)
    fun a a' h run => ?_
  cases run
  obtain ⟨aimed, -⟩ := h.emit (i := .mov .x1 .x0) (T := .x1 :: handed) nofun nofun fun r hr => by
    refine ⟨(List.mem_cons.mp hr).symm.imp_right ?_, nofun⟩
    rintro rfl
    exact List.mem_cons_self
  exact ⟨aimed, Assembly.precedes_emit a _⟩

instance [Code G ctx.forwardException] : Aims G handed true ctx ExceptionEntries.handling := by
  unfold ExceptionEntries.handling
  infer_instance

end

/-! ## Stubs and signature handlers -/

/-- In the stubs the entry that the host passes is not a constant, either. -/
abbrev passed : List Register := .x2 :: handed

instance : Varying .scratch1 passed := ⟨by decide⟩

section
open Stubs

instance : Aims G passed true ctx callCode := by unfold callCode; infer_instance

instance : Aims G passed true ctx forward := by unfold forward; infer_instance

instance (s : Service) (p : UInt64) [Code G p] : Aims G passed true ctx (Stubs.throwing s p) := by
  unfold Stubs.throwing; infer_instance

end

instance (index : UInt64) (r : Register) :
    Aims G handed true ctx (Signature.passObject index r) := by
  unfold Signature.passObject; infer_instance

instance (index : UInt64) (words : List Register) (floats : List FloatRegister)
    (ts : List TypeTag) :
    Aims G handed true ctx (Signature.passParameters index words floats ts) := by
  induction ts generalizing index words floats with
  | nil => exact pure ()
  | cons t ts ih =>
    unfold Signature.passParameters
    cases t <;> cases words <;> cases floats <;> first | exact ih .. | infer_instance

instance (s : Signature) (p : UInt64) : Aims G handed true ctx (s.code p) := by
  unfold Signature.code; infer_instance

end TemplateVm.Aims

/-! ## What code ends with -/

namespace TemplateVm.Closes

open Emit Aims

variable {G : UInt64 → Prop} {ctx : CodeContext}

instance (t : TopOfStack) : Closes G handed true ctx (dispatchOn t) := by
  unfold dispatchOn; infer_instance

instance (t : TopOfStack) (step : UInt64) : Closes G handed true ctx (dispatchNext t step) := by
  unfold dispatchNext; infer_instance

instance (s : Service) (p : UInt64) [Code G p] : Closes G passed true ctx (Stubs.throwing s p) := by
  unfold Stubs.throwing; infer_instance

instance (s : Signature) (p : UInt64) : Closes G handed true ctx (s.code p) := by
  unfold Signature.code; infer_instance

/-- The template that comes last goes on with the next bytecode. -/
instance (e : ExceptionEntries) [Entries G e] (trace : EntryPoint) [Traced G ctx trace]
    [Code G ctx.forwardException] (p : UInt64) :
    Closes G handed false ctx (Emit.entryPoint e p trace .ifnonnull) := by
  unfold Emit.entryPoint templateCode
  simp only [Template.ofOpcode, Template.falling, Emit.whenM, Bool.not_false, if_true]
  infer_instance

end TemplateVm.Closes
