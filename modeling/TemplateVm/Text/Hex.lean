set_option autoImplicit false

/-!
# Hexadecimal text

Words are written in lowercase hexadecimal after `0x`, without leading zeros unless a width asks
for them.
-/
namespace TemplateVm.Text

/-- The lowercase digits of `n`; zero has the one digit `0`. -/
def hexDigits (n : Nat) : String := String.ofList (Nat.toDigits 16 n)

/-- `text` filled up on the left with `fill` to at least `width` characters. -/
def padLeft (width : Nat) (fill : Char) (text : String) : String :=
  String.ofList (List.replicate (width - text.length) fill) ++ text

def hex (n : Nat) : String := "0x" ++ hexDigits n

/-- At least eight digits, so that addresses of a listing line up. -/
def hexAddress (n : Nat) : String := "0x" ++ padLeft 8 '0' (hexDigits n)

def hexByte (b : UInt8) : String := padLeft 2 '0' (hexDigits b.toNat)

/-- Two digits a byte, in order. -/
def hexBytes (bytes : List UInt8) : String := String.join (bytes.map hexByte)

def hexDigit? (c : Char) : Option Nat :=
  if '0' ≤ c ∧ c ≤ '9' then some (c.toNat - '0'.toNat)
  else if 'a' ≤ c ∧ c ≤ 'f' then some (c.toNat - 'a'.toNat + 10)
  else if 'A' ≤ c ∧ c ≤ 'F' then some (c.toNat - 'A'.toNat + 10)
  else none

/-- The number that a sequence of digits denotes; every character must be a digit. -/
def ofHexDigits? (digits : List Char) : Option Nat :=
  digits.foldlM (fun n c => (hexDigit? c).map (16 * n + ·)) 0

/-- The bytes that `hexBytes` writes. -/
def ofHexBytes? : List Char → Option (List UInt8)
  | [] => some []
  | [_] => none
  | a :: b :: rest => do
    let hi ← hexDigit? a
    let lo ← hexDigit? b
    let bytes ← ofHexBytes? rest
    pure ((16 * hi + lo).toUInt8 :: bytes)

end TemplateVm.Text
