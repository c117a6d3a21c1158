import TemplateVm.Text.Json

set_option autoImplicit false

/-!
# Asking for parts of JSON values

A missing member or item is null, and what has another form than the one asked for counts as
empty. A word is an integer modulo 2^64; it may be a number, or a text in decimal or after `0x`.
-/
namespace TemplateVm.Text.Json

/-- The member of an object with the key. -/
def member (j : Json) (key : String) : Json :=
  match j with
  | object ms => ((ms.find? (·.1 == some key)).map (·.2)).getD null
  | _ => null

def items : Json → List Json
  | array l => l
  | _ => []

def item (j : Json) (i : Nat) : Json := j.items.getD i null

def text? : Json → Option String
  | text s => some s
  | _ => none

def asText (j : Json) : String := j.text?.getD ""

def asFlag : Json → Bool
  | bool b => b
  | _ => false

def wordOfInt (n : Int) : UInt64 := (n % UInt64.size).toNat.toUInt64

def word? : Json → Option UInt64
  | number literal => literal.toInt?.map wordOfInt
  | text s =>
    match s.toList with
    | '0' :: 'x' :: digits => (ofHexDigits? digits).map Nat.toUInt64
    | _ => s.toInt?.map wordOfInt
  | _ => none

def asWord (j : Json) : UInt64 := j.word?.getD 0

/-- The bytes of a text of two digits each. -/
def asBytes (j : Json) : List UInt8 := (ofHexBytes? j.asText.toList).getD []

end TemplateVm.Text.Json
