/-! The shortest decimal that reads back as a given binary float, and of those the nearest. -/

namespace CodeModel.Decimal

structure Scaled where
  digits : Nat
  exponent : Int
deriving DecidableEq

/-- A finite positive float in units of a quarter of its last place: its value is
`4 * mantissa * 2 ^ scale`, and `below` and `above` are the distances to the ends of the interval
of numbers that round to it. -/
structure Rounding where
  mantissa : Nat
  scale : Int
  below : Nat
  above : Nat

def fractions : Nat := Nat.pow 2 52

def signBit : Nat := Nat.pow 2 63

def Rounding.ofBits (bits : UInt64) : Rounding :=
  let fraction : Nat := bits.toNat % fractions
  let exponent : Nat := bits.toNat / fractions % 2048
  if exponent = 0 then ⟨fraction, -1076, 2, 2⟩
  else ⟨fraction + fractions, (exponent : Int) - 1077, if fraction = 0 && exponent != 1 then 1 else 2, 2⟩

def Rounding.isOpen (r : Rounding) : Bool := r.mantissa % 2 = 1

def pow (base : Nat) (e : Int) : Nat := Nat.pow base e.toNat

def Rounding.accepts (r : Rounding) (d : Nat) (e : Int) : Bool :=
  let point := d * pow 10 e * pow 2 (-r.scale)
  let unit := pow 10 (-e) * pow 2 r.scale
  let low := (4 * r.mantissa - r.below) * unit
  let high := (4 * r.mantissa + r.above) * unit
  if r.isOpen then low < point && point < high else low ≤ point && point ≤ high

def Rounding.nearest? (r : Rounding) (e : Int) : Option Nat :=
  let value := 4 * r.mantissa * (pow 2 r.scale * pow 10 (-e))
  let unit := pow 10 e * pow 2 (-r.scale)
  let d := value / unit
  match r.accepts d e, r.accepts (d + 1) e with
  | true, true => some (if 2 * (value % unit) < unit then d else d + 1)
  | true, false => some d
  | false, true => some (d + 1)
  | false, false => none

def Rounding.search (r : Rounding) : Nat → Int → Scaled
  | 0, e => ⟨0, e⟩
  | fuel + 1, e =>
    match r.nearest? e with
    | some d => ⟨d, e⟩
    | none => r.search fuel (e - 1)

/-- An exponent above the first digit of the float: `30103 / 100000` exceeds the decimal logarithm
of two. -/
def Rounding.top (r : Rounding) : Int :=
  ((Nat.log2 (4 * r.mantissa) + 1 : Int) + r.scale) * 30103 / 100000 + 1

def shortest (bits : UInt64) : Scaled :=
  let r := Rounding.ofBits bits
  r.search 24 r.top

end CodeModel.Decimal
