import TemplateVm.Guest.TypeTag

set_option autoImplicit false

/-!
# Descriptors

A field descriptor names one type; a method descriptor names the types of the parameters, in
parentheses, and of the result. Only the result may be void.
-/
namespace TemplateVm

/-- Splits off the name of a class and the semicolon after it. -/
def className? (s : List Char) : Option (List Char) :=
  match s.span (· ≠ ';') with
  | (_ :: _, ';' :: rest) => some rest
  | _ => none

/-- Splits off one type, void included. The elements of an array must have a type other than void;
    `brackets` says that a bracket has been read. -/
def typeFrom? (brackets : Bool) : List Char → Option (TypeTag × List Char)
  | [] => none
  | c :: rest =>
    match TypeTag.ofLetter? c with
    | none => none
    | some .object => (className? rest).map (if brackets then .array else .object, ·)
    | some .array => typeFrom? true rest
    | some .void => if brackets then none else some (.void, rest)
    | some t => some (if brackets then .array else t, rest)

/-- Splits off parameter types up to the closing parenthesis. Each takes at least one character, so
    the length of the text bounds their number. -/
def parametersFrom? : Nat → List Char → Option (List TypeTag × List Char)
  | 0, _ => none
  | fuel + 1, s =>
    match s with
    | [] => none
    | ')' :: rest => some ([], rest)
    | s =>
      match typeFrom? false s with
      | none | some (.void, _) => none
      | some (t, rest) => (parametersFrom? fuel rest).map fun (ts, rest) => (t :: ts, rest)

/-- The type named by a field descriptor. -/
def fieldType? (text : String) : Option TypeTag :=
  match typeFrom? false text.toList with
  | some (.void, _) => none
  | some (t, []) => some t
  | _ => none

structure MethodDescriptor where
  text : String
  parameters : List TypeTag
  result : TypeTag
  deriving DecidableEq, Inhabited

namespace MethodDescriptor

def ofText? (text : String) : Option MethodDescriptor :=
  match text.toList with
  | '(' :: s => do
    let (parameters, s) ← parametersFrom? (s.length + 1) s
    match typeFrom? false s with
    | some (result, []) => some ⟨text, parameters, result⟩
    | _ => none
  | _ => none

/-- Words of the declared parameters, without the receiver. -/
def parameterWords (d : MethodDescriptor) : Nat := d.parameters.foldl (fun n t => n + t.words) 0

end MethodDescriptor
end TemplateVm
