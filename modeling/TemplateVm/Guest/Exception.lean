set_option autoImplicit false

/-!
# Built-in exceptions

The exception classes that the machine raises by itself, with their places in the class hierarchy.
-/
namespace TemplateVm

inductive BuiltinException where
  | stackOverflow | arrayIndexOutOfBounds | classCast | nullPointer | arithmetic
  | illegalMonitorState | unsatisfiedLink | abstractMethod | noSuchMethod | noSuchField
  | negativeArraySize | noClassDefFound | incompatibleClassChange
  deriving DecidableEq, Inhabited

namespace BuiltinException

def all : List BuiltinException :=
  [stackOverflow, arrayIndexOutOfBounds, classCast, nullPointer, arithmetic, illegalMonitorState,
    unsatisfiedLink, abstractMethod, noSuchMethod, noSuchField, negativeArraySize,
    noClassDefFound, incompatibleClassChange]

/-- The number by which generated code names the exception. -/
def index (e : BuiltinException) : Nat := e.ctorIdx

def ofIndex? (n : Nat) : Option BuiltinException := all[n]?

def className : BuiltinException → String
  | stackOverflow => "java/lang/StackOverflowError"
  | arrayIndexOutOfBounds => "java/lang/ArrayIndexOutOfBoundsException"
  | classCast => "java/lang/ClassCastException"
  | nullPointer => "java/lang/NullPointerException"
  | arithmetic => "java/lang/ArithmeticException"
  | illegalMonitorState => "java/lang/IllegalMonitorStateException"
  | unsatisfiedLink => "java/lang/UnsatisfiedLinkError"
  | abstractMethod => "java/lang/AbstractMethodError"
  | noSuchMethod => "java/lang/NoSuchMethodError"
  | noSuchField => "java/lang/NoSuchFieldError"
  | negativeArraySize => "java/lang/NegativeArraySizeException"
  | noClassDefFound => "java/lang/NoClassDefFoundError"
  | incompatibleClassChange => "java/lang/IncompatibleClassChangeError"

def superclassName : BuiltinException → String
  | stackOverflow => "java/lang/VirtualMachineError"
  | arrayIndexOutOfBounds => "java/lang/IndexOutOfBoundsException"
  | classCast | nullPointer | arithmetic | illegalMonitorState | negativeArraySize =>
    "java/lang/RuntimeException"
  | unsatisfiedLink | noClassDefFound | incompatibleClassChange => "java/lang/LinkageError"
  | abstractMethod | noSuchMethod | noSuchField => "java/lang/IncompatibleClassChangeError"

end BuiltinException
end TemplateVm
