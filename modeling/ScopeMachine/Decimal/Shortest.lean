import ScopeMachine.Decimal.Reading

/-!
# The shortest decimal that reads back

Reading a decimal rounds it to the nearest float, and to the one with an even significand from the
middle between two. The decimals that read back as a given float are therefore an interval around
it, whose ends belong to it exactly when the significand is even. For one digit, two digits and so
on, the two neighbours of the float on that decimal grid are tested in whole numbers; the first grid
with a hit decides the number of digits, and the nearer of two hits wins. A float exactly between
two hits takes the larger one.
-/

namespace ScopeMachine.Decimal

/-- The positive decimal `coefficient * 10 ^ exponent`. -/
structure Numeral where
  /-- Whole number whose digits are written. -/
  coefficient : Nat
  /-- Power of ten that the last digit counts. -/
  exponent : Int
deriving DecidableEq

/-- Number of decimal digits. -/
def digitCount (n : Nat) : Nat := (Nat.toDigits 10 n).length

/-- Interval of the decimals that read back as one positive float, as fractions with a common
denominator. -/
structure Basin where
  /-- Numerator of the lower end. -/
  low : Nat
  /-- Numerator of the float. -/
  middle : Nat
  /-- Numerator of the upper end. -/
  high : Nat
  /-- Common denominator. -/
  denominator : Nat
  /-- Whether the ends read back too. -/
  closed : Bool

/-- Basin of `significand * 2 ^ exponent`, in quarters of the distance to the next float; below a
power of two floats lie twice as dense. -/
def Basin.ofFloat (significand : Nat) (exponent : Int) : Basin :=
  let scale := Nat.pow 2 (exponent - 2).toNat
  let below := if significand = hiddenBit ∧ leastExponent < exponent then 1 else 2
  { low := (4 * significand - below) * scale
    middle := 4 * significand * scale
    high := (4 * significand + 2) * scale
    denominator := Nat.pow 2 (2 - exponent).toNat
    closed := significand % 2 = 0 }

namespace Basin

/-- Least power of ten above the float. -/
def ceilingExponent (basin : Basin) : Int :=
  if basin.denominator ≤ basin.middle then
    digitCount (basin.middle / basin.denominator)
  else
    1 - (digitCount ((basin.denominator - 1) / basin.middle) : Int)

/-- The basin measured in units of `10 ^ exponent`. -/
def inUnits (basin : Basin) (exponent : Int) : Basin :=
  let up := Nat.pow 10 (-exponent).toNat
  { basin with
    low := basin.low * up
    middle := basin.middle * up
    high := basin.high * up
    denominator := basin.denominator * Nat.pow 10 exponent.toNat }

/-- Whether a whole number lies in the basin. -/
def contains (basin : Basin) (n : Nat) : Bool :=
  let scaled := n * basin.denominator
  if basin.closed then
    basin.low ≤ scaled ∧ scaled ≤ basin.high
  else
    basin.low < scaled ∧ scaled < basin.high

/-- Whole number in the basin next to the float, the larger one from the middle between two. -/
def nearest? (basin : Basin) : Option Nat :=
  let down := basin.middle / basin.denominator
  let up := down + 1
  match basin.contains down, basin.contains up with
  | false, false => none
  | true, false => some down
  | false, true => some up
  | true, true =>
    if 2 * basin.middle < (down + up) * basin.denominator then some down else some up

end Basin

/-- Numeral of a coefficient with a given number of digits; one more digit means a power of ten. -/
def Numeral.ofDigits (digits coefficient : Nat) (exponent : Int) : Numeral :=
  if coefficient = Nat.pow 10 digits then ⟨1, exponent + digits⟩ else ⟨coefficient, exponent⟩

/-- Numeral with a given number of digits that reads back, if there is one. -/
def withDigits? (basin : Basin) (digits : Nat) : Option Numeral :=
  let exponent := basin.ceilingExponent - digits
  (basin.inUnits exponent).nearest?.map fun n => Numeral.ofDigits digits n exponent

/-- Most digits that any float needs. -/
def mostDigits : Nat := 17

/-- Numeral with the fewest digits that reads back as the positive float `significand * 2 ^
exponent`. -/
def shortest (significand : Nat) (exponent : Int) : Numeral :=
  let basin := Basin.ofFloat significand exponent
  ((List.range mostDigits).findSome? fun n => withDigits? basin (n + 1)).getD ⟨0, 0⟩

end ScopeMachine.Decimal
