set_option autoImplicit false

/-!
# Little-endian numbers in a byte array

Reading outside the array gives zero bytes, writing outside changes nothing. Callers check the
bounds first, so neither is seen.
-/
namespace TemplateVm.Memory

def byteAt (b : ByteArray) (i : Nat) : UInt8 := if h : i < b.size then b[i] else 0

def setByte (b : ByteArray) (i : Nat) (v : UInt8) : ByteArray :=
  if h : i < b.size then b.set i v h else b

/-- The number whose lowest byte is the first of `width` bytes. -/
def load (b : ByteArray) (i : Nat) : Nat → UInt64
  | 0 => 0
  | width + 1 => (byteAt b i).toUInt64 ||| (load b (i + 1) width <<< 8)

def store (b : ByteArray) (i : Nat) (v : UInt64) : Nat → ByteArray
  | 0 => b
  | width + 1 => store (setByte b i v.toUInt8) (i + 1) (v >>> 8) width

def storeBytes (b : ByteArray) (i : Nat) : List UInt8 → ByteArray
  | [] => b
  | v :: vs => storeBytes (setByte b i v) (i + 1) vs

def fill (b : ByteArray) (i : Nat) (v : UInt8) : Nat → ByteArray
  | 0 => b
  | n + 1 => fill (setByte b i v) (i + 1) v n

def bytesFrom (b : ByteArray) (i n : Nat) : List UInt8 := (b.extract i (i + n)).toList

/-- Doubling makes a large block of zeros in few steps. -/
def zeros (n : Nat) : ByteArray :=
  if n = 0 then ByteArray.empty
  else
    let half := zeros (n / 2)
    let whole := half ++ half
    if n % 2 = 0 then whole else whole.push 0
termination_by n

end TemplateVm.Memory
