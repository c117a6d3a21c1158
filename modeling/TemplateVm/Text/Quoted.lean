import TemplateVm.Text.Hex
import TemplateVm.Text.Visibility

set_option autoImplicit false

/-!
# Quoted text

Messages quote a name so that its extent is visible: quotes and backslashes are escaped, the common
controls have letters, and other characters without a glyph are given by their code point.
-/
namespace TemplateVm.Text

def quoteChar (c : Char) : String :=
  if c = '"' then "\\\""
  else if c = '\\' then "\\\\"
  else if c = '\n' then "\\n"
  else if c = '\t' then "\\t"
  else if c = '\r' then "\\r"
  else if c = Char.ofNat 0 then "\\0"
  else if isHidden c then "\\u\x7b" ++ hexDigits c.toNat ++ "\x7d"
  else String.singleton c

def quote (s : String) : String := "\"" ++ String.join (s.toList.map quoteChar) ++ "\""

/-- An optional text, quoted if it is there. -/
def quoteOption : Option String → String
  | none => "None"
  | some s => "Some(" ++ quote s ++ ")"

/-- A named record: its fields with their values, already written. -/
def record (name : String) (fields : List (String × String)) : String :=
  name ++ " \x7b " ++ String.intercalate ", " (fields.map fun f => f.1 ++ ": " ++ f.2) ++ " \x7d"

end TemplateVm.Text
