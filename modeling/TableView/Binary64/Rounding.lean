import TableView.Binary64.Basic

/-!
# Correct rounding to binary64

One function rounds every exact quotient of naturals to the nearest number, ties
to the even significand (`ofQuotient`). Reading decimals, converting integers and
adding are this rounding applied to an exact result, so each of them is correctly
rounded for the same reason.

In the other direction `roundToInt` takes the nearest integer, halves away from
zero, and `toInt64` clamps it to the 64-bit range.
-/

namespace TableView.Binary64

/-- The quotient rounded to the nearest natural, a half going to the even one. -/
def divNearest (n d : Nat) : Nat :=
  if 2 * (n % d) < d ∨ (2 * (n % d) = d ∧ n / d % 2 = 0) then n / d else n / d + 1

/-- The word nearest to `n / d` units. The spacing is doubled until 53 bits hold the
quotient; a significand that rounds up to `2 ^ 53` carries into the next spacing,
which is exactly the next word. -/
def nearestWord (n d : Nat) : Nat :=
  let step := (n / d).log2 - 52
  step * 0x10000000000000 + divNearest n (d <<< step)

/-- The number with the given word, or infinity when the word is beyond the finite ones. -/
def ofWord (negative : Bool) (word : Nat) : Binary64 :=
  if h : word < infinityWord then ⟨negative, word, Nat.lt_trans h (by decide)⟩
  else infinity negative

/-- The number nearest to `n / d` units of `2 ^ -1074`. -/
def ofUnits (negative : Bool) (n d : Nat) : Binary64 := ofWord negative (nearestWord n d)

/-- The number nearest to the quotient `n / d` with the given sign. -/
def ofQuotient (negative : Bool) (n d : Nat) : Binary64 := ofUnits negative (n <<< 1074) d

/-- The number nearest to an integer. -/
def ofInt (i : Int) : Binary64 := ofQuotient (i < 0) i.natAbs 1

/-- The correctly rounded sum. Infinities of opposite signs have none, and an exact
zero is positive unless both summands are negative. -/
def add (x y : Binary64) : Binary64 :=
  if x.isNaN || y.isNaN then nan
  else if x.isFinite && y.isFinite then
    let total := x.signedUnits + y.signedUnits
    if total = 0 then zero (x.negative && y.negative) else ofUnits (total < 0) total.natAbs 1
  else if !x.isFinite && !y.isFinite && x.negative != y.negative then nan
  else if x.isFinite then y else x

instance : Add Binary64 := ⟨add⟩

/-- The nearest integer to a finite number, halves going away from zero. -/
def roundToInt (x : Binary64) : Int :=
  let magnitude : Nat := (2 * x.units + 1 <<< 1074) >>> 1075
  if x.negative then -(magnitude : Int) else magnitude

/-- The nearest 64-bit integer: beyond the range its end, and zero for NaN. -/
def toInt64 (x : Binary64) : Int64 :=
  if x.isNaN then 0
  else if x.isFinite then
    Int64.ofInt (max Int64.minValue.toInt (min Int64.maxValue.toInt x.roundToInt))
  else if x.negative then Int64.minValue else Int64.maxValue

end TableView.Binary64
