/-!
Binary floating-point numbers of 64 bits, exactly: a sign, a magnitude
`mantissa * 2 ^ exponent`, and rounding of any quotient of natural numbers to
the nearest such number, ties to the even mantissa.  Infinities and
not-a-number are left out: a quotient too large for the format has no value.
-/

namespace BuildWatch.Decimal

/-- A finite binary number; zero has mantissa zero and the least exponent. -/
structure Binary64 where
  negative : Bool
  mantissa : Nat
  exponent : Int
deriving Repr, DecidableEq

namespace Binary64

def mantissaBound : Nat := Nat.pow 2 53

def leastExponent : Int := -1074

def greatestExponent : Int := 971

def zero (negative : Bool) : Binary64 :=
  { negative := negative, mantissa := 0, exponent := leastExponent }

def isZero (number : Binary64) : Bool := number.mantissa == 0

/-- The natural number nearest to a quotient, a half going to the even one. -/
def roundDiv (num den : Nat) : Nat :=
  let whole := num / den
  let rest := num % den
  if 2 * rest < den then whole
  else if 2 * rest = den then whole + whole % 2
  else whole + 1

/-- `num / den` as a quotient over the unit `2 ^ exponent`. -/
def scaled (num den : Nat) (exponent : Int) : Nat × Nat :=
  if 0 ≤ exponent then (num, den * Nat.pow 2 exponent.toNat)
  else (num * Nat.pow 2 (-exponent).toNat, den)

/-- The exponent at which a quotient has a mantissa of 53 binary digits, or the
least exponent for small quotients.  The first guess comes from the lengths of
numerator and denominator and is at most one too small. -/
def exponentFor (num den : Nat) : Int :=
  let guess : Int := (num.log2 : Int) - (den.log2 : Int) - 53
  let quotient := scaled num den guess
  let exponent := if quotient.1 / quotient.2 < mantissaBound then guess else guess + 1
  max exponent leastExponent

/-- The magnitude nearest to the quotient `num / den`, if the format has one. -/
def magnitude? (num den : Nat) : Option (Nat × Int) :=
  if num = 0 then some (0, leastExponent)
  else
    let exponent := exponentFor num den
    let quotient := scaled num den exponent
    let mantissa := roundDiv quotient.1 quotient.2
    let normal :=
      if mantissa < mantissaBound then (mantissa, exponent) else (mantissa / 2, exponent + 1)
    if normal.2 ≤ greatestExponent then some normal else none

def ofQuotient? (negative : Bool) (num den : Nat) : Option Binary64 :=
  (magnitude? num den).map fun magnitude =>
    { negative := negative, mantissa := magnitude.1, exponent := magnitude.2 }

def quotient (number : Binary64) : Nat × Nat :=
  if 0 ≤ number.exponent then (number.mantissa * Nat.pow 2 number.exponent.toNat, 1)
  else (number.mantissa, Nat.pow 2 (-number.exponent).toNat)

def mul? (left right : Binary64) : Option Binary64 :=
  let a := left.quotient
  let b := right.quotient
  ofQuotient? (left.negative != right.negative) (a.1 * b.1) (a.2 * b.2)

/-- The quotient of two magnitudes, rounded; the divisor must not be zero. -/
def div? (left right : Binary64) : Option Binary64 :=
  let a := left.quotient
  let b := right.quotient
  ofQuotient? (left.negative != right.negative) (a.1 * b.2) (a.2 * b.1)

def withSign (number : Binary64) (negative : Bool) : Binary64 :=
  { number with negative := negative }

end Binary64

end BuildWatch.Decimal
