set_option autoImplicit false

/-!
# Kinds of method entries

Every method is entered through the code generated for its kind.
-/
namespace TemplateVm

inductive EntryKind where
  | normal | normalSynchronized | native | nativeSynchronized | empty | accessor | abstract
  | methodHandle | mathSin | mathCos | mathTan | mathAbs | mathSqrt | mathLog | mathLog10
  | mathPow | mathExp | referenceGet
  deriving DecidableEq, Inhabited

namespace EntryKind

def all : List EntryKind :=
  [normal, normalSynchronized, native, nativeSynchronized, empty, accessor, abstract, methodHandle,
    mathSin, mathCos, mathTan, mathAbs, mathSqrt, mathLog, mathLog10, mathPow, mathExp,
    referenceGet]

/-- Position in the table of entries. -/
def index (k : EntryKind) : Nat := k.ctorIdx

def ofIndex? (n : Nat) : Option EntryKind := all[n]?

def isMath : EntryKind → Bool
  | mathSin | mathCos | mathTan | mathAbs | mathSqrt | mathLog | mathLog10 | mathPow | mathExp =>
    true
  | _ => false

def isNative : EntryKind → Bool
  | native | nativeSynchronized => true
  | _ => false

/-- The entry acquires the monitor of the method. -/
def isSynchronized : EntryKind → Bool
  | normalSynchronized | nativeSynchronized => true
  | _ => false

def name : EntryKind → String
  | normal => "zerolocals"
  | normalSynchronized => "zerolocals_synchronized"
  | native => "native"
  | nativeSynchronized => "native_synchronized"
  | empty => "empty"
  | accessor => "accessor"
  | abstract => "abstract"
  | methodHandle => "method_handle"
  | mathSin => "java_lang_math_sin"
  | mathCos => "java_lang_math_cos"
  | mathTan => "java_lang_math_tan"
  | mathAbs => "java_lang_math_abs"
  | mathSqrt => "java_lang_math_sqrt"
  | mathLog => "java_lang_math_log"
  | mathLog10 => "java_lang_math_log10"
  | mathPow => "java_lang_math_pow"
  | mathExp => "java_lang_math_exp"
  | referenceGet => "java_lang_ref_reference_get"

end EntryKind
end TemplateVm
