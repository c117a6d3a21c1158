import TemplateVm.Bytecode.Body
import TemplateVm.Vm.Host

set_option autoImplicit false

/-!
# Demo programs

Small programs that show what the machine can do, each with a method of ints to start with.
-/
namespace TemplateVm.Console

open Bytecode (Body)

inductive Demo where
  /-- Adds the numbers up to a limit, in a loop. -/
  | sum
  /-- Fibonacci numbers by recursion. -/
  | fib
  /-- Division in a callee, with a handler for division by zero. -/
  | divide
  /-- Squares through a native method. -/
  | native
  /-- Recursion without an end. -/
  | overflow
  deriving DecidableEq, Inhabited

namespace Demo

def all : List Demo := [sum, fib, divide, native, overflow]

def name : Demo → String
  | sum => "sum" | fib => "fib" | divide => "divide" | native => "native"
  | overflow => "overflow"

def ofName? (s : String) : Option Demo := all.find? (·.name == s)

def className : String := "demo/Main"

/-- The method that is called. -/
def entry : Demo → String
  | sum => "sum" | fib => "fib" | divide => "divide" | native => "square"
  | overflow => "recurse"

def defaults : Demo → List Int32
  | sum => [100] | fib => [15] | divide => [7, 0] | native => [12] | overflow => [0]

/-- As many arguments as the entry takes; missing ones have defaults, further ones are dropped. -/
def arguments (d : Demo) (given : List Int32) : List Int32 :=
  given.take d.defaults.length ++ d.defaults.drop given.length

def member (name descriptor : String) : MemberRef := ⟨className, name, descriptor⟩

/-- A static method with a finished body. -/
def method (name descriptor : String) (maxLocals : UInt16) (body : Body) :
    Except Bytecode.BodyDefect MethodDefinition := do
  let code ← body.finish
  pure { name, descriptor, maxLocals, code := code.toList }

/-- A call of the first pool entry. -/
def call (b : Body) : Body := b.linked .invokestatic 0

/-- Locals are the limit, the sum so far, and the next number. -/
def sumBody : Body :=
  let (head, b) := Body.newLabel {}
  let (done, b) := b.newLabel
  let b := (((b.iconst 0).istore 1).iconst 1).istore 2
  let b := b.bind head
  let b := ((b.iload 2).iload 0).branch .ifIcmpgt done
  let b := (((b.iload 1).iload 2).op .iadd).istore 1
  let b := ((b.iinc 2 1).branch .goto head).bind done
  (b.iload 1).op .ireturn

def fibBody : Body :=
  let (recurse, b) := Body.newLabel {}
  let b := ((b.iload 0).iconst 2).branch .ifIcmpge recurse
  let b := (((b.iload 0).op .ireturn).bind recurse).iload 0
  let b := call ((b.iconst 1).op .isub)
  let b := call (((b.iload 0).iconst 2).op .isub)
  (b.op .iadd).op .ireturn

/-- The part of the caller that is protected. -/
def divideCall : Body := (call (Body.iload (Body.iload {} 0) 1)).op .ireturn

def divideClass : Except Bytecode.BodyDefect ClassDefinition := do
  let div ← method "div" "(II)I" 2 (((Body.iload (Body.iload {} 0) 1).op .idiv).op .ireturn)
  let caller ← method "divide" "(II)I" 2 (((divideCall.op .pop).iconst (-1)).op .ireturn)
  let handler := divideCall.pc.toUInt16
  let row : HandlerRow :=
    ⟨0, handler, handler, some (BuiltinException.className .arithmetic)⟩
  pure { name := className, pool := [.methodRef (member "div" "(II)I")]
         methods := [div, { caller with handlers := [row] }] }

def product : MemberRef := member "mul" "(II)I"

def nativeClass : Except Bytecode.BodyDefect ClassDefinition := do
  let square ← method "square" "(I)I" 1 ((call (Body.iload (Body.iload {} 0) 0)).op .ireturn)
  let access : Access := ⟨Access.publicStatic.bits ||| Access.nativeBit⟩
  pure { name := className, pool := [.methodRef product]
         methods := [{ name := product.name, descriptor := product.descriptor, access }, square] }

/-- A class whose only method may call itself. -/
def selfCalling (name : String) (maxLocals : UInt16) (body : Body) :
    Except Bytecode.BodyDefect ClassDefinition := do
  let m ← method name "(I)I" maxLocals body
  pure { name := className, pool := [.methodRef (member name "(I)I")], methods := [m] }

def classDefinition : Demo → Except Bytecode.BodyDefect ClassDefinition
  | sum => do
    let m ← method "sum" "(I)I" 3 sumBody
    pure { name := className, methods := [m] }
  | fib => selfCalling "fib" 1 fibBody
  | divide => divideClass
  | native => nativeClass
  | overflow =>
    selfCalling "recurse" 1 ((call (((Body.iload {} 0).iconst 1).op .iadd)).op .ireturn)

/-- Loads the program and links its native method. -/
def install (d : Demo) : Vm.Action Unit := do
  let c ← match d.classDefinition with
    | .ok c => pure c
    | .error defect => throw (.invalidClass defect.message)
  let _ ← Vm.onWorld (World.load c)
  if d = native then Vm.registerNative product (Native.HostFunction.address .iMul)

end Demo
end TemplateVm.Console
