import BuildWatch.Decimal.Binary64

/-!
The shortest decimal of a binary number: of all decimals that round to the
number, one with the fewest digits, and of those the nearest.
-/

namespace BuildWatch.Decimal

/-- A positive decimal `digits * 10 ^ exponent`. -/
structure Numeral where
  digits : Nat
  exponent : Int
deriving Repr, DecidableEq

/-- The same decimal without trailing zeros, of which at most `steps` are taken
off. -/
def Numeral.trimmed (numeral : Numeral) : Nat → Numeral
  | 0 => numeral
  | steps + 1 =>
      if numeral.digits % 10 = 0 && numeral.digits != 0 then
        Numeral.trimmed ⟨numeral.digits / 10, numeral.exponent + 1⟩ steps
      else numeral

namespace Binary64

/-- Twice the magnitude, and twice the two ends of the interval that rounds to
it, over a common denominator.  The lower neighbour of a power of two lies only
half as far. -/
structure Interval where
  low : Nat
  value : Nat
  high : Nat
  denominator : Nat
  closed : Bool
deriving Repr

def interval (number : Binary64) : Interval :=
  let power := number.mantissa == mantissaBound / 2 && number.exponent != leastExponent
  let below := if power then 1 else 2
  let value := 4 * number.mantissa
  let even := number.mantissa % 2 == 0
  if 0 ≤ number.exponent then
    let unit := Nat.pow 2 number.exponent.toNat
    { low := (value - below) * unit, value := value * unit, high := (value + 2) * unit,
      denominator := 4, closed := even }
  else
    { low := value - below, value := value, high := value + 2,
      denominator := 4 * Nat.pow 2 (-number.exponent).toNat, closed := even }

/-- Whether the decimal `digits * 10 ^ exponent` lies in an interval. -/
def Interval.holds (range : Interval) (digits : Nat) (exponent : Int) : Bool :=
  let point := if 0 ≤ exponent then digits * Nat.pow 10 exponent.toNat * range.denominator
    else digits * range.denominator
  let unit := if 0 ≤ exponent then 1 else Nat.pow 10 (-exponent).toNat
  if range.closed then range.low * unit ≤ point && point ≤ range.high * unit
  else range.low * unit < point && point < range.high * unit

/-- The two multiples of `10 ^ exponent` around the value, with twice the
distance of the value above the lower one, over the unit. -/
def Interval.around (range : Interval) (exponent : Int) : Nat × Nat × Nat :=
  let num := if 0 ≤ exponent then range.value else range.value * Nat.pow 10 (-exponent).toNat
  let den := if 0 ≤ exponent then range.denominator * Nat.pow 10 exponent.toNat else range.denominator
  (num / den, 2 * (num % den), den)

/-- The decimal on the grid of `10 ^ exponent` that rounds to the value, the
nearer one if both neighbours do, the even one if they are equally near. -/
def Interval.onGrid? (range : Interval) (exponent : Int) : Option Numeral :=
  let (floor, twice, den) := range.around exponent
  let below := floor != 0 && range.holds floor exponent
  let above := range.holds (floor + 1) exponent
  let preferBelow := twice < den || (twice == den && floor % 2 == 0)
  if below && (preferBelow || !above) then some ⟨floor, exponent⟩
  else if above then some ⟨floor + 1, exponent⟩
  else none

def digitCount (number : Nat) : Nat :=
  (Nat.toDigits 10 number).length

/-- The decimal exponent of the leading digit of the value. -/
def Interval.scale (range : Interval) : Int :=
  if range.denominator ≤ range.value then
    (digitCount (range.value / range.denominator) : Int) - 1
  else
    let guess : Int := -(digitCount (range.denominator / range.value) : Int)
    if range.denominator ≤ range.value * Nat.pow 10 (-guess - 1).toNat then guess + 1
    else guess

def Interval.search (range : Interval) (exponent : Int) : Nat → Option Numeral
  | 0 => none
  | grids + 1 =>
      match range.onGrid? exponent with
      | some numeral => some numeral
      | none => range.search (exponent - 1) grids

/-- The shortest decimal of a number other than zero: seventeen digits always
suffice, and one grid is allowed for a value just under a power of ten. -/
def shortest (number : Binary64) : Numeral :=
  let range := number.interval
  let found := (range.search (range.scale + 1) 20).getD ⟨number.mantissa, 0⟩
  found.trimmed 20

end Binary64

end BuildWatch.Decimal
