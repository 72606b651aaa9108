import TableView.Binary64.Rounding

/-!
# Decimals and the binary64 numbers they denote

A `Decimal` is a whole number of units of a power of ten. `Decimal.toBinary64`
is the number nearest to it, and every finite number is itself a decimal, with
`Binary64.exactDigits` units of `10 ^ -1074`.
-/

namespace TableView

/-- The decimal `digits * 10 ^ exponent`. -/
structure Decimal where
  digits : Nat
  exponent : Int
deriving DecidableEq

namespace Decimal

/-- A power of ten. -/
def powerOfTen (n : Nat) : Nat := Nat.pow 10 n

/-- The number nearest to a decimal with the given sign. Decimals of at least `10 ^ 310`
are infinite and positive ones below `10 ^ -330` are zero, whatever their digits; the
bounds spare the computation of powers that no answer depends on. -/
def toBinary64 (negative : Bool) (d : Decimal) : Binary64 :=
  if d.digits = 0 then .zero negative
  else if d.exponent ≥ 310 then .infinity negative
  else if d.exponent + d.digits.log2 / 3 + 1 < -330 then .zero negative
  else if d.exponent ≥ 0 then .ofQuotient negative (d.digits * powerOfTen d.exponent.toNat) 1
  else .ofQuotient negative d.digits (powerOfTen (-d.exponent).toNat)

/-- The digits of the decimal, least significant zeros dropped; none for zero. -/
def significant (d : Decimal) : List Char :=
  ((Nat.toDigits 10 d.digits).reverse.dropWhile (· == '0')).reverse

/-- Where the decimal point stands: the decimal is `0.` followed by its digits, times
`10 ^ point`. -/
def point (d : Decimal) : Int := d.exponent + (Nat.toDigits 10 d.digits).length

end Decimal

/-- The magnitude of a finite number in units of `10 ^ -1074`, which is exact because
`2 ^ -1074` is `5 ^ 1074` such units. -/
def Binary64.exactDigits (x : Binary64) : Nat := x.units * Nat.pow 5 1074

end TableView
