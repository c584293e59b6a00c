import CodeModel.Decimal.Shortest

namespace CodeModel.Decimal

structure Style where
  wholePoint : Bool
  exponents : Option (Int × Int)

def positional : Style := ⟨false, none⟩

def general : Style := ⟨true, some (-4, 17)⟩

def zeros (n : Int) : List Char := List.replicate n.toNat '0'

def place (wholePoint : Bool) (digits : List Char) (point : Int) : List Char :=
  if point ≤ 0 then ['0', '.'] ++ zeros (-point) ++ digits
  else if digits.length ≤ point then
    digits ++ zeros (point - digits.length) ++ if wholePoint then ['.', '0'] else []
  else digits.take point.toNat ++ '.' :: digits.drop point.toNat

def scientific (digits : List Char) (point : Int) : List Char :=
  digits.take 1 ++ (if digits.length = 1 then [] else '.' :: digits.drop 1) ++
    'e' :: (toString (point - 1)).toList

def Style.magnitude (style : Style) (bits : UInt64) : List Char :=
  if bits.toNat % signBit = 0 then if style.wholePoint then ['0', '.', '0'] else ['0']
  else
    let s := shortest bits
    let digits := Nat.toDigits 10 s.digits
    let point := s.exponent + digits.length
    match style.exponents with
    | some (low, high) =>
      if point ≤ low || high ≤ point then scientific digits point else place style.wholePoint digits point
    | none => place style.wholePoint digits point

def Style.write (style : Style) (bits : UInt64) : String :=
  let rest := bits.toNat % signBit
  if 2047 * fractions < rest then "NaN"
  else
    let magnitude := if rest = 2047 * fractions then ['i', 'n', 'f'] else style.magnitude bits
    String.ofList (if bits.toNat / signBit = 1 then '-' :: magnitude else magnitude)

end CodeModel.Decimal
