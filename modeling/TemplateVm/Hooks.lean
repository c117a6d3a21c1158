import TemplateVm.Class.Table
import TemplateVm.Guest.TopOfStack

set_option autoImplicit false

/-!
# Hooks

What the embedder of the machine watches and decides: a debugger that pops frames, a policy for
methods that are called often, requests after native calls, and whether the stack is guarded
again. Decisions are given beforehand, and what happens is logged.
-/
namespace TemplateVm

/-- Methods whose frames are to be popped, once each, by name. -/
structure Debugger where
  popAtEntry : List String := []
  popAtExit : List String := []
  deriving DecidableEq, Inhabited

/-- What is asked for after a native call. -/
inductive NativeRequest where
  | nothing | safepoint | suspend
  deriving DecidableEq, Inhabited

inductive HookEvent where
  | entry (method : MemberRef)
  | exit (method : MemberRef) (tos : TopOfStack)
  | overflow (method : MemberRef) (count : UInt32)
  | native
  | reguard (answer : Bool)
  | safepoint (operation : String)
  deriving DecidableEq, Inhabited

def HookEvent.text : HookEvent → String
  | entry method => "entry " ++ method.text
  | exit method tos => s!"exit {method.text} {tos.name}"
  | overflow method count => s!"overflow {method.text} {count.toNat}"
  | native => "native"
  | reguard answer => if answer then "reguard true" else "reguard false"
  | safepoint operation => "safepoint " ++ operation

structure Hooks where
  debugger : Option Debugger := none
  /-- Counter overflows are logged. -/
  watchesOverflow : Bool := false
  /-- What to ask for after the next native calls. -/
  nativeRequests : Option (List NativeRequest) := none
  /-- The next answers to whether the stack is guarded again. -/
  guardAnswers : Option (List Bool) := none
  /-- What happened, the latest event first. -/
  log : List HookEvent := []
  deriving DecidableEq, Inhabited

namespace Hooks

def note (h : Hooks) (e : HookEvent) : Hooks := { h with log := e :: h.log }

/-- The events since the last time, in their order. -/
def drain (h : Hooks) : List HookEvent × Hooks := (h.log.reverse, { h with log := [] })

/-- A method is entered; says whether its frame is to be popped. -/
def methodEntry (h : Hooks) (m : MemberRef) : Bool × Hooks :=
  match h.debugger with
  | none => (false, h)
  | some d =>
    let h := h.note (.entry m)
    (d.popAtEntry.contains m.name,
      { h with debugger := some { d with popAtEntry := d.popAtEntry.erase m.name } })

/-- A method is left; says whether its frame is to be popped. -/
def methodExit (h : Hooks) (m : MemberRef) (tos : TopOfStack) : Bool × Hooks :=
  match h.debugger with
  | none => (false, h)
  | some d =>
    let h := h.note (.exit m tos)
    (d.popAtExit.contains m.name,
      { h with debugger := some { d with popAtExit := d.popAtExit.erase m.name } })

def counterOverflow (h : Hooks) (m : MemberRef) (count : UInt32) : Hooks :=
  if h.watchesOverflow then h.note (.overflow m count) else h

/-- Nothing is asked for once the requests are used up. -/
def afterNativeCall (h : Hooks) : NativeRequest × Hooks :=
  match h.nativeRequests with
  | none => (.nothing, h)
  | some requests =>
    (requests.head?.getD .nothing, { h.note .native with nativeRequests := some requests.tail })

/-- The answer is yes once the answers are used up. -/
def shouldReguard (h : Hooks) : Bool × Hooks :=
  match h.guardAnswers with
  | none => (true, h)
  | some answers =>
    let answer := answers.head?.getD true
    (answer, { h.note (.reguard answer) with guardAnswers := some answers.tail })

end Hooks
end TemplateVm
