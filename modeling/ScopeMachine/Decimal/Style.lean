import ScopeMachine.Decimal.Shortest

/-!
# Floats in decimal notation

Two notations are in use. Program output writes a whole number with all its digits and one zero
after the point, and any other number by its shortest digits in positional notation. Diagnostics
write the shortest digits always and pass to an exponent for very large and very small numbers.
-/

namespace ScopeMachine.Decimal

/-- A run of zeros. -/
def zeros (count : Nat) : String := String.ofList (List.replicate count '0')

/-- Positional notation, with at least one digit on each side of the point. -/
def Numeral.positional (numeral : Numeral) : String :=
  let digits := Nat.toDigits 10 numeral.coefficient
  let places := (-numeral.exponent).toNat
  if 0 ≤ numeral.exponent then
    String.ofList digits ++ zeros numeral.exponent.toNat ++ ".0"
  else if places < digits.length then
    let split := digits.length - places
    String.ofList (digits.take split) ++ "." ++ String.ofList (digits.drop split)
  else
    "0." ++ zeros (places - digits.length) ++ String.ofList digits

/-- Exponent of the first digit. -/
def Numeral.order (numeral : Numeral) : Int :=
  numeral.exponent + digitCount numeral.coefficient - 1

/-- Exponent notation, with one digit before the point and no point for a single digit. -/
def Numeral.scientific (numeral : Numeral) : String :=
  let power := toString numeral.order
  match Nat.toDigits 10 numeral.coefficient with
  | [] => power
  | [digit] => digit.toString ++ "e" ++ power
  | digit :: rest => digit.toString ++ "." ++ String.ofList rest ++ "e" ++ power

/-- How the numbers of a notation are written. -/
structure Style where
  /-- Whether whole numbers show all their digits rather than the shortest. -/
  exactWhole : Bool
  /-- Least and greatest exponent of the first digit in positional notation, if it is bounded. -/
  positionalOrders : Option (Int × Int)

/-- Program output: whole numbers in full, never an exponent. -/
def Style.output : Style := ⟨true, none⟩

/-- Diagnostics: shortest digits, with an exponent below `10 ^ -4` and from `10 ^ 16` on. -/
def Style.diagnostic : Style := ⟨false, some (-4, 15)⟩

/-- Whether a numeral is written without an exponent. -/
def Style.isPositional (style : Style) (numeral : Numeral) : Bool :=
  match style.positionalOrders with
  | none => true
  | some (least, greatest) => least ≤ numeral.order ∧ numeral.order ≤ greatest

/-- Absolute value of a finite float. -/
def Style.magnitude (style : Style) (significand : Nat) (exponent : Int) : String :=
  if significand = 0 then
    "0.0"
  else
    match style.exactWhole, whole? significand exponent with
    | true, some n => Numeral.positional ⟨n, 0⟩
    | _, _ =>
      let numeral := shortest significand exponent
      if style.isPositional numeral then numeral.positional else numeral.scientific

/-- Sign in front of a number. -/
def sign (negative : Bool) : String := if negative then "-" else ""

/-- Text of a reading. -/
def Style.reading (style : Style) : Reading → String
  | .nan => "NaN"
  | .infinite negative => sign negative ++ "inf"
  | .finite negative significand exponent => sign negative ++ style.magnitude significand exponent

/-- Text of a float. -/
def Style.text (style : Style) (x : Float) : String := style.reading (.ofBits x.toBits)

end ScopeMachine.Decimal
