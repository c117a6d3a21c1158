set_option autoImplicit false

/-!
# Shortest decimals

A binary floating number stands for every real that rounds to it. Among the decimal grids with a
point in that interval the coarsest is taken, and of its points the one nearest to the number; a tie
goes up. The digits are written positionally, without an exponent.
-/
namespace TemplateVm.Decimal

/-- A binary format: `fraction` stored bits of significand and `exponent` bits of exponent. -/
structure Format where
  fraction : Nat
  exponent : Nat

def Format.single : Format := ⟨23, 8⟩
def Format.double : Format := ⟨52, 11⟩

/-- What the bits of a number say. A finite one is `mantissa * 2 ^ scale`; `tight` says that its
    lower neighbour is only half as far away as its upper one. -/
inductive Decoded where
  | notANumber
  | infinite (negative : Bool)
  | finite (negative : Bool) (mantissa : Nat) (scale : Int) (tight : Bool)

def decode (f : Format) (bits : Nat) : Decoded :=
  let negative := bits >>> (f.fraction + f.exponent) % 2 = 1
  let field := bits >>> f.fraction % (1 <<< f.exponent)
  let fraction := bits % (1 <<< f.fraction)
  let bias := (1 <<< (f.exponent - 1)) - 1 + f.fraction
  if field = (1 <<< f.exponent) - 1 then
    if fraction = 0 then .infinite negative else .notANumber
  else if field = 0 then .finite negative fraction (1 - (bias : Int)) false
  else
    let units := (1 <<< f.fraction) + fraction
    .finite negative units ((field : Int) - bias) (fraction = 0 ∧ 1 < field)

/-- The interval of reals that round to a number, in quarters of a unit in its last place. -/
structure Interval where
  low : Nat
  value : Nat
  high : Nat
  closed : Bool

def interval (mantissa : Nat) (tight : Bool) : Interval :=
  ⟨4 * mantissa - (if tight then 1 else 2), 4 * mantissa, 4 * mantissa + 2, mantissa % 2 = 0⟩

def Interval.contains (i : Interval) (unit grid point : Nat) : Bool :=
  if i.closed then i.low * unit ≤ point * grid ∧ point * grid ≤ i.high * unit
  else i.low * unit < point * grid ∧ point * grid < i.high * unit

/-- The point of the grid `10 ^ s` that lies in the interval, if there is one. `unit` and `grid` are
    a quarter of a unit and the grid's step over a common denominator. -/
def Interval.nearest? (i : Interval) (unit grid : Nat) : Option Nat :=
  let below := i.value * unit / grid
  let above := below + 1
  match i.contains unit grid below, i.contains unit grid above with
  | true, true =>
    some (if i.value * unit - below * grid < above * grid - i.value * unit then below else above)
  | true, false => some below
  | false, true => some above
  | false, false => none

/-- Tries ever finer grids, at most `fuel` of them, starting at `10 ^ s`. -/
def Interval.coarsest (i : Interval) (quarter : Int) : Nat → Int → Nat × Int
  | 0, s => (i.value, s)
  | fuel + 1, s =>
    let unit := 2 ^ quarter.toNat * 10 ^ (-s).toNat
    let grid := 2 ^ (-quarter).toNat * 10 ^ s.toNat
    match i.nearest? unit grid with
    | some d => (d, s)
    | none => i.coarsest quarter fuel (s - 1)

/-- Digits and power of ten of the shortest decimal of `mantissa * 2 ^ scale`. Twenty-four grids
    reach from above the number to below its precision. -/
def shortest (mantissa : Nat) (scale : Int) (tight : Bool) : Nat × Int :=
  let top := Int.fdiv ((mantissa.log2 + scale + 1) * 30103) 100000 + 1
  (interval mantissa tight).coarsest (scale - 2) 24 top

/-- `digits * 10 ^ s` without an exponent. -/
def positional (digits : Nat) (s : Int) : String :=
  let ds := Nat.toDigits 10 digits
  if 0 ≤ s then String.ofList (ds ++ List.replicate s.toNat '0')
  else
    let places := (-s).toNat
    let ds := List.replicate (places + 1 - ds.length) '0' ++ ds
    String.ofList (ds.take (ds.length - places) ++ '.' :: ds.drop (ds.length - places))

def text (f : Format) (bits : Nat) : String :=
  let sign (negative : Bool) : String := if negative then "-" else ""
  match decode f bits with
  | .notANumber => "NaN"
  | .infinite negative => sign negative ++ "inf"
  | .finite negative 0 _ _ => sign negative ++ "0"
  | .finite negative mantissa scale tight =>
    let (digits, s) := shortest mantissa scale tight
    sign negative ++ positional digits s

end TemplateVm.Decimal
