/-!
# The number that a float stands for

A 64-bit encoding is read as a signed whole significand times a power of two, or as one of the
values without a number. Everything that writes a float in decimal starts from this reading and
works in whole numbers.
-/

namespace ScopeMachine.Decimal

/-- What a 64-bit float encoding stands for. -/
inductive Reading where
  /-- No number. -/
  | nan
  /-- Beyond all numbers, on one side. -/
  | infinite (negative : Bool)
  /-- The number `significand * 2 ^ exponent`, with its sign kept also for zero. -/
  | finite (negative : Bool) (significand : Nat) (exponent : Int)
deriving DecidableEq

/-- Exponent of the smallest numbers. -/
def leastExponent : Int := -1074

/-- First significand that needs the hidden bit. -/
def hiddenBit : Nat := Nat.pow 2 52

/-- Reading of an encoding with one sign bit, eleven exponent bits and fifty-two fraction bits. -/
def Reading.ofBits (bits : UInt64) : Reading :=
  let word := bits.toNat
  let negative := Nat.pow 2 63 ≤ word
  let exponent := word / hiddenBit % 2048
  let fraction := word % hiddenBit
  if exponent = 2047 then
    if fraction = 0 then .infinite negative else .nan
  else if exponent = 0 then
    .finite negative fraction leastExponent
  else
    .finite negative (hiddenBit + fraction) (exponent - 1 + leastExponent)

/-- Whole number equal to `significand * 2 ^ exponent`, if there is one. -/
def whole? (significand : Nat) (exponent : Int) : Option Nat :=
  if 0 ≤ exponent then
    some (significand * Nat.pow 2 exponent.toNat)
  else
    let divisor := Nat.pow 2 (-exponent).toNat
    if significand % divisor = 0 then some (significand / divisor) else none

end ScopeMachine.Decimal
