namespace PortablePdb.Json

/-- A decimal number as it is read: a number of 64 bits times a power of ten. -/
structure Decimal where
  significand : Nat
  exponent : Int
  deriving DecidableEq, Repr

/-- The value of a decimal digit. -/
def digitValue (c : Char) : Nat :=
  c.toNat - '0'.toNat

/-- The number that digits stand for. -/
def natOfDigits (digits : List Char) : Nat :=
  digits.foldl (fun n c => 10 * n + digitValue c) 0

/-- A number with digits added to it as long as 64 bits hold it, and the digits that are left. -/
def addDigits (n : Nat) : List Char → Nat × List Char
  | [] => (n, [])
  | c :: digits =>
    if 10 * n + digitValue c < 0x10000000000000000 then addDigits (10 * n + digitValue c) digits
    else (n, c :: digits)

namespace Decimal

/-- The number with the given digits before and after the point. -/
def ofDigits (whole fraction : List Char) (exponent : Int) : Decimal :=
  let (significand, dropped) := addDigits 0 whole
  let (significand, rest) := addDigits significand fraction
  ⟨significand, exponent + dropped.length - (fraction.length - rest.length : Nat)⟩

/-- The nearest number of 53 significant bits; of two nearest ones, the even one. -/
def roundToDouble (n : Nat) : Nat :=
  let unit := 1 <<< (n.log2 + 1 - 53)
  let quotient := n / unit
  let rest := 2 * (n % unit)
  if unit < rest || rest == unit && quotient % 2 == 1 then (quotient + 1) * unit
  else quotient * unit

/-- The smallest number that is rounded to infinity. -/
def overflowBound : Nat :=
  0x3FFFFFFFFFFFFF <<< 970

/-- The largest exponent of a power of ten in the range. -/
def maxExponent : Nat := 308

/-- Whether the number lies in the range. The power of ten is rounded before it is multiplied with.
-/
def isFinite (number : Decimal) : Bool :=
  if number.significand = 0 || number.exponent < 0 then true
  else if maxExponent < number.exponent then false
  else
    roundToDouble number.significand * roundToDouble (Nat.pow 10 number.exponent.toNat) <
      overflowBound

end Decimal

end PortablePdb.Json
