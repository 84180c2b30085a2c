import ModulePath.Fault

/-!
# Double precision numbers

A double is kept by its 64 bits. `Double.parts` reads the bits as a sign, a mantissa and a power of
two, `Double.value?` as a rational, and `Double.ofRatio` finds the double nearest to a quotient, a
tie going to the even mantissa. Everything is exact arithmetic on natural numbers.
-/

set_option autoImplicit false

namespace ModulePath

/-- A double precision number by its bits. -/
structure Double where
  bits : UInt64
deriving DecidableEq, Inhabited

namespace Double

/-- What the bits of a double say: a finite value is `±mantissa · 2 ^ exponent`. -/
inductive Parts where
  | nan
  | infinite (negative : Bool)
  | finite (negative : Bool) (mantissa : Nat) (exponent : Int)
deriving DecidableEq

/-- The sign, the mantissa and the exponent of a double. -/
def parts (d : Double) : Parts :=
  let n := d.bits.toNat
  let negative := n / Nat.pow 2 63 == 1
  let exponent : Nat := n / Nat.pow 2 52 % Nat.pow 2 11
  let fraction := n % Nat.pow 2 52
  if exponent == 2047 then
    if fraction == 0 then .infinite negative else .nan
  else if exponent == 0 then .finite negative fraction (-1074)
  else .finite negative (Nat.pow 2 52 + fraction) ((exponent : Int) - 1075)

/-- The double of a sign and the 63 bits below it. -/
def ofMagnitude (negative : Bool) (magnitude : Nat) : Double :=
  ⟨UInt64.ofNat ((if negative then Nat.pow 2 63 else 0) + magnitude)⟩

/-- The bits of an infinity below its sign. -/
def infinityMagnitude : Nat := 2047 * Nat.pow 2 52

/-- Infinity. -/
def infinity (negative : Bool) : Double := ofMagnitude negative infinityMagnitude

/-- The quiet value that is no number. -/
def nan : Double := ⟨0x7FF8000000000000⟩

/-- Zero. -/
def zero : Double := ⟨0⟩

/-! ## Rounding -/

/-- `2 ^ e` as numerator and denominator. -/
def powerOfTwo (e : Int) : Nat × Nat := (Nat.pow 2 e.toNat, Nat.pow 2 (-e).toNat)

/-- The natural number nearest to `num / den`, a tie going to the even one. -/
def roundQuotient (num den : Nat) : Nat :=
  let q := num / den
  let r := num % den
  if 2 * r < den then q
  else if den < 2 * r then q + 1
  else if q % 2 = 0 then q else q + 1

/-- The greatest `e` with `2 ^ e ≤ num / den`, for positive `num` and `den`. -/
def floorLog2 (num den : Nat) : Int :=
  let e : Int := (Nat.log2 num : Int) - Nat.log2 den
  let p := powerOfTwo e
  if den * p.1 ≤ num * p.2 then e else e - 1

/-- The double nearest to `±num / den`, for a positive `den`. A quotient that rounds to `2 ^ 1024`
or more becomes an infinity. -/
def ofRatio (negative : Bool) (num den : Nat) : Double :=
  if num = 0 then ofMagnitude negative 0
  else
    let q : Int := max (floorLog2 num den - 52) (-1074)
    let p := powerOfTwo q
    let mantissa := roundQuotient (num * p.2) (den * p.1)
    ofMagnitude negative (min ((q + 1074).toNat * Nat.pow 2 52 + mantissa) infinityMagnitude)

/-- The number of decimal digits of `n`. -/
def digitCount (n : Nat) : Nat := (Nat.toDigits 10 n).length

/-- The double nearest to `±digits · 10 ^ exponent`. -/
def ofDecimal (negative : Bool) (digits : Nat) (exponent : Int) : Double :=
  if digits = 0 then ofMagnitude negative 0
  else
    let size : Int := (digitCount digits : Int) + exponent
    if 310 < size then infinity negative
    else if size < -330 then ofMagnitude negative 0
    else ofRatio negative (digits * Nat.pow 10 exponent.toNat) (Nat.pow 10 (-exponent).toNat)

/-! ## Value -/

/-- Whether the double is no number. -/
def isNaN (d : Double) : Bool := d.parts == .nan

/-- The double of the opposite sign. -/
def negate (d : Double) : Double := ⟨d.bits ^^^ 0x8000000000000000⟩

/-- The exact value of a finite double. -/
def value? (d : Double) : Option Rat :=
  match d.parts with
  | .finite negative mantissa exponent =>
    let p := powerOfTwo exponent
    let v := mkRat (mantissa * p.1) p.2
    some (if negative then -v else v)
  | _ => none

/-- Whether two doubles are equal as numbers: the two zeros are, and what is no number is not. -/
def numericEq (a b : Double) : Bool :=
  match a.parts, b.parts with
  | .infinite s, .infinite t => s == t
  | .finite .., .finite .. => a.value? == b.value?
  | _, _ => false

/-- Whether a double is equal to an integer. -/
def equalsInt (d : Double) (n : Int) : Bool :=
  d.value? == some (n : Rat)

/-- Whether a double is at most an integer. -/
def leInt (d : Double) (n : Int) : Bool :=
  match d.parts with
  | .nan => false
  | .infinite negative => negative
  | .finite .. => (d.value?.map fun x => decide (x ≤ (n : Rat))).getD false

/-- Whether a double is below another. -/
def lt (a b : Double) : Bool :=
  match a.parts, b.parts with
  | .nan, _ => false
  | _, .nan => false
  | .infinite s, .infinite t => s && !t
  | .infinite s, .finite .. => s
  | .finite .., .infinite t => !t
  | .finite .., .finite .. =>
    (a.value?.bind fun x => b.value?.map fun y => decide (x < y)).getD false

/-! ## Arithmetic without signs -/

/-- The sum of two doubles of which neither is negative. -/
def plus (a b : Double) : Double :=
  match a.value?, b.value? with
  | some x, some y => let z := x + y; ofRatio false z.num.natAbs z.den
  | _, _ => infinity false

/-- The product of a double that is not negative and a positive number, which has to be below
`2 ^ 1024` as a double. -/
def times? (a : Double) (n : Nat) : Except Fault Double :=
  match a.value?, (ofRatio false n 1).value? with
  | _, none => .error .overflow
  | none, _ => .ok (infinity false)
  | some x, some y => let z := x * y; .ok (ofRatio false z.num.natAbs z.den)

end Double

end ModulePath
