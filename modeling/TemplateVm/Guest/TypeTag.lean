set_option autoImplicit false

/-!
# Types of guest values

The types that a descriptor can name, with the numbers class files use for them.
-/
namespace TemplateVm

inductive TypeTag where
  | boolean | char | float | double | byte | short | int | long | object | array | void
  deriving DecidableEq, Inhabited

namespace TypeTag

/-- Class files number the types from four on. -/
def code (t : TypeTag) : Nat := t.ctorIdx + 4

def all : List TypeTag :=
  [boolean, char, float, double, byte, short, int, long, object, array, void]

def ofCode? (n : Nat) : Option TypeTag := all.find? (·.code = n)

def name : TypeTag → String
  | boolean => "boolean" | char => "char" | float => "float" | double => "double"
  | byte => "byte" | short => "short" | int => "int" | long => "long"
  | object => "object" | array => "array" | void => "void"

/-- The letter that starts a descriptor of the type. -/
def letter : TypeTag → Char
  | boolean => 'Z' | char => 'C' | float => 'F' | double => 'D' | byte => 'B' | short => 'S'
  | int => 'I' | long => 'J' | object => 'L' | array => '[' | void => 'V'

def ofLetter? (c : Char) : Option TypeTag := all.find? (·.letter = c)

/-- Words in local variables and on the operand stack. -/
def words : TypeTag → Nat
  | long | double => 2
  | void => 0
  | _ => 1

def isReference : TypeTag → Bool
  | object | array => true
  | _ => false

def isFloating : TypeTag → Bool
  | float | double => true
  | _ => false

/-- One type for each native result handler, in slot order. Arrays use the handler of objects. -/
def resultHandlers : List TypeTag :=
  [boolean, char, byte, short, int, long, void, float, double, object]

def resultHandlerIndex : TypeTag → Nat
  | boolean => 0 | char => 1 | byte => 2 | short => 3 | int => 4 | long => 5 | void => 6
  | float => 7 | double => 8 | object | array => 9

/-- Bytes of an array element of the type. -/
def elementSize : TypeTag → Nat
  | boolean | byte => 1
  | char | short => 2
  | float | int => 4
  | _ => 8

/-- Name of the class of arrays with elements of the type. -/
def arrayClassName (t : TypeTag) : String :=
  match t with
  | array | void => "[L"
  | t => "[" ++ String.singleton t.letter

end TypeTag
end TemplateVm
