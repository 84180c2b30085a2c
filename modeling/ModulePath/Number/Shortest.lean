import ModulePath.Number.Double

/-!
# The shortest text of a double

`shortest` finds the decimal with the fewest digits that reads back as the given double, and among
those the nearest. `Double.text` writes it: positionally when the decimal exponent lies from −4 to
15, with a point and at least one digit after it, otherwise with a signed exponent of at least two
digits.
-/

set_option autoImplicit false

namespace ModulePath

namespace Double

/-- A positive decimal `digits · 10 ^ exponent`. -/
structure Decimal where
  digits : Nat
  exponent : Int
deriving DecidableEq

/-- The reals that round to a double, as numerators over one denominator: the double itself is
`mid / den`, the ends are `low / den` and `high / den`, and `closed` says that the ends belong. -/
structure Interval where
  low : Nat
  mid : Nat
  high : Nat
  den : Nat
  closed : Bool

/-- The interval of a positive finite double. Below a power of two the neighbours are twice as
close as above it. -/
def interval (mantissa : Nat) (exponent : Int) : Interval :=
  let p := powerOfTwo exponent
  let mid := 4 * mantissa * p.1
  let below := if mantissa = Nat.pow 2 52 && -1074 < exponent then p.1 else 2 * p.1
  ⟨mid - below, mid, mid + 2 * p.1, 4 * p.2, mantissa % 2 = 0⟩

/-- A decimal over the denominator of the interval, with the factor that makes both whole. -/
def Interval.scale (i : Interval) (d : Decimal) : Nat × Nat :=
  (d.digits * Nat.pow 10 d.exponent.toNat * i.den, Nat.pow 10 (-d.exponent).toNat)

/-- Whether a decimal lies in the interval. -/
def Interval.holds (i : Interval) (d : Decimal) : Bool :=
  let (v, f) := i.scale d
  if i.closed then i.low * f ≤ v && v ≤ i.high * f else i.low * f < v && v < i.high * f

/-- The distance of a decimal from the double, over the denominator that `scale` gives. -/
def Interval.distance (i : Interval) (d : Decimal) : Nat :=
  let (v, f) := i.scale d
  if v ≤ i.mid * f then i.mid * f - v else v - i.mid * f

/-- The decimal exponent of the leading digit of `num / den`. -/
def leadingExponent (num den : Nat) : Int :=
  if den ≤ num then (digitCount (num / den) : Int) - 1 else -(digitCount (den / num) : Int)

/-- The decimal nearest to the double among the two neighbours on the grid of `10 ^ exponent` that
lie in the interval. -/
def Interval.onGrid (i : Interval) (exponent : Int) : Option Decimal :=
  let digits := i.mid * Nat.pow 10 (-exponent).toNat / (i.den * Nat.pow 10 exponent.toNat)
  let lower : Decimal := ⟨digits, exponent⟩
  let upper : Decimal := ⟨digits + 1, exponent⟩
  match i.holds lower, i.holds upper with
  | true, true =>
    let a := i.distance lower
    let b := i.distance upper
    some (if a < b || (a = b && digits % 2 = 0) then lower else upper)
  | true, false => some lower
  | false, true => some upper
  | false, false => none

/-- The first grid with a hit, the grids being those of one digit, two digits and so on up to
seventeen. -/
def shortest (mantissa : Nat) (exponent : Int) : Decimal :=
  let i := interval mantissa exponent
  let top := leadingExponent i.mid i.den
  ((List.range 17).findSome? fun (k : Nat) => i.onGrid (top - k)).getD ⟨mantissa, 0⟩

/-! ## Text -/

/-- How a decimal is laid out: written positionally for leading exponents from `least` to `most`,
otherwise with an exponent of at least `exponentDigits` digits. -/
structure Layout where
  least : Int
  most : Int
  exponentDigits : Nat

/-- The layout of a double in a message. -/
def messageLayout : Layout := ⟨-4, 15, 2⟩

/-- `n` in decimal digits. -/
def natDigits (n : Nat) : List Char := Nat.toDigits 10 n

/-- The digits of a positive number without the zeros at their end. -/
def significantDigits (n : Nat) : List Char :=
  ((natDigits n).reverse.dropWhile (· == '0')).reverse

/-- A decimal in a layout. -/
def Decimal.text (layout : Layout) (d : Decimal) : List Char :=
  let digits := significantDigits d.digits
  let top : Int := d.exponent + (natDigits d.digits).length - 1
  if layout.least ≤ top && top ≤ layout.most then
    if top < 0 then '0' :: '.' :: (List.replicate (-top - 1).toNat '0' ++ digits)
    else
      let whole := top.toNat + 1
      let fraction := digits.drop whole
      digits.take whole ++ List.replicate (whole - digits.length) '0' ++
        '.' :: (if fraction.isEmpty then ['0'] else fraction)
  else
    let size := natDigits top.natAbs
    digits.take 1 ++ (if digits.length ≤ 1 then [] else '.' :: digits.drop 1) ++
      'e' :: (if top < 0 then '-' else '+') ::
        (List.replicate (layout.exponentDigits - size.length) '0' ++ size)

/-- The text of a double. -/
def text (d : Double) : String :=
  match d.parts with
  | .nan => "nan"
  | .infinite negative => if negative then "-inf" else "inf"
  | .finite negative mantissa exponent =>
    let body :=
      if mantissa = 0 then ['0', '.', '0'] else (shortest mantissa exponent).text messageLayout
    String.ofList (if negative then '-' :: body else body)

end Double

end ModulePath
