import TemplateVm.MemoryMap

set_option autoImplicit false

/-!
# Runtime services

What generated code can call besides code. Each service has an address outside of memory; control
that arrives there leaves the machine until the service is done.
-/
namespace TemplateVm

inductive Service where
  | resolve | newInstance | newArray | createException | createClassException
  | throwArrayIndexOutOfBounds | throwIllegalMonitorState | newIllegalMonitorState
  | throwIncompatibleClassChange | throwPendingException | handlerForException | monitorEnter
  | monitorExit | counterOverflow | prepareNativeCall | postMethodEntry | postMethodExit
  | atSafepoint | interpreterContains | popframeMoveArguments | popframePreserveArguments
  | traceBytecode | handlerForReturnAddress | throwStackOverflow | throwAbstractMethod
  | throwNullPointer | checkNativeTransition | reguardYellowZone | sin | cos | tan | log | log10
  | exp | pow | markBarrier | verifyReference
  deriving DecidableEq, Inhabited

namespace Service

def all : Array Service := #[
  resolve, newInstance, newArray, createException, createClassException,
  throwArrayIndexOutOfBounds, throwIllegalMonitorState, newIllegalMonitorState,
  throwIncompatibleClassChange, throwPendingException, handlerForException, monitorEnter,
  monitorExit, counterOverflow, prepareNativeCall, postMethodEntry, postMethodExit,
  atSafepoint, interpreterContains, popframeMoveArguments, popframePreserveArguments,
  traceBytecode, handlerForReturnAddress, throwStackOverflow, throwAbstractMethod,
  throwNullPointer, checkNativeTransition, reguardYellowZone, sin, cos, tan, log, log10,
  exp, pow, markBarrier, verifyReference]

def index (s : Service) : Nat := s.ctorIdx

def address (s : Service) : UInt64 := Place.runtimeBase + s.index.toUInt64 * Place.runtimeStride

def ofAddress? (a : UInt64) : Option Service :=
  if a < Place.runtimeBase ∨ (a - Place.runtimeBase) % Place.runtimeStride ≠ 0 then none
  else all[((a - Place.runtimeBase) / Place.runtimeStride).toNat]?

/-- The service neither inspects frames nor posts exceptions, so that the thread stays in the
    state in which it called. -/
def isLeaf : Service → Bool
  | interpreterContains | popframeMoveArguments | popframePreserveArguments
  | handlerForReturnAddress | checkNativeTransition | reguardYellowZone | sin | cos | tan | log
  | log10 | exp | pow | markBarrier | verifyReference => true
  | _ => false

def name : Service → String
  | resolve => "InterpreterRuntime::resolve"
  | newInstance => "InterpreterRuntime::_new"
  | newArray => "InterpreterRuntime::newarray"
  | createException => "InterpreterRuntime::create_exception"
  | createClassException => "InterpreterRuntime::create_klass_exception"
  | throwArrayIndexOutOfBounds => "InterpreterRuntime::throw_ArrayIndexOutOfBoundsException"
  | throwIllegalMonitorState => "InterpreterRuntime::throw_illegal_monitor_state_exception"
  | newIllegalMonitorState => "InterpreterRuntime::new_illegal_monitor_state_exception"
  | throwIncompatibleClassChange => "InterpreterRuntime::throw_IncompatibleClassChangeError"
  | throwPendingException => "InterpreterRuntime::throw_pending_exception"
  | handlerForException => "InterpreterRuntime::exception_handler_for_exception"
  | monitorEnter => "InterpreterRuntime::monitorenter"
  | monitorExit => "InterpreterRuntime::monitorexit"
  | counterOverflow => "InterpreterRuntime::frequency_counter_overflow"
  | prepareNativeCall => "InterpreterRuntime::prepare_native_call"
  | postMethodEntry => "InterpreterRuntime::post_method_entry"
  | postMethodExit => "InterpreterRuntime::post_method_exit"
  | atSafepoint => "InterpreterRuntime::at_safepoint"
  | interpreterContains => "InterpreterRuntime::interpreter_contains"
  | popframeMoveArguments => "InterpreterRuntime::popframe_move_outgoing_args"
  | popframePreserveArguments => "Deoptimization::popframe_preserve_args"
  | traceBytecode => "SharedRuntime::trace_bytecode"
  | handlerForReturnAddress => "SharedRuntime::exception_handler_for_return_address"
  | throwStackOverflow => "SharedRuntime::throw_StackOverflowError"
  | throwAbstractMethod => "SharedRuntime::throw_AbstractMethodError"
  | throwNullPointer => "SharedRuntime::throw_NullPointerException"
  | checkNativeTransition => "JavaThread::check_special_condition_for_native_trans"
  | reguardYellowZone => "SharedRuntime::reguard_yellow_pages"
  | sin => "SharedRuntime::dsin"
  | cos => "SharedRuntime::dcos"
  | tan => "SharedRuntime::dtan"
  | log => "SharedRuntime::dlog"
  | log10 => "SharedRuntime::dlog10"
  | exp => "SharedRuntime::dexp"
  | pow => "SharedRuntime::dpow"
  | markBarrier => "SharedRuntime::g1_wb_pre"
  | verifyReference => "MacroAssembler::debug_verify_oop"

end Service
end TemplateVm
