import TableView.Decimal.Shortest

/-!
# Number notation

How the shortest decimal of a number is laid out. A `NumberFormat` records the
choices: what happens to ties, which positions of the decimal point are written
positionally, and whether a whole number keeps a fraction of `.0`.
-/

namespace TableView

/-- The choices of a number layout. `positional` bounds the positions of the decimal
point that are written without an exponent; without bounds all are. -/
structure NumberFormat where
  tie : Tie
  positional : Option (Int × Int)
  keepsFraction : Bool

namespace NumberFormat

/-- Digits without an exponent. Zeros fill the space between the digits and a point
that lies outside them. -/
def positionalText (f : NumberFormat) (digits : List Char) (point : Int) : List Char :=
  let ending := if f.keepsFraction then ['.', '0'] else []
  if digits.isEmpty then '0' :: ending
  else if point ≤ 0 then '0' :: '.' :: (List.replicate (-point).toNat '0' ++ digits)
  else if digits.length ≤ point.toNat then
    digits ++ List.replicate (point.toNat - digits.length) '0' ++ ending
  else digits.take point.toNat ++ '.' :: digits.drop point.toNat

/-- One digit before the point and an exponent that always has a sign. -/
def scientificText (digits : List Char) (point : Int) : List Char :=
  let power := point - 1
  let sign := if power < 0 then '-' else '+'
  let exponent := 'e' :: sign :: Nat.toDigits 10 power.natAbs
  match digits with
  | [] => '0' :: exponent
  | [d] => d :: exponent
  | d :: rest => d :: '.' :: (rest ++ exponent)

/-- Whether a number with its point there is written positionally. Zero always is. -/
def isPositional (f : NumberFormat) (digits : List Char) (point : Int) : Bool :=
  match f.positional with
  | none => true
  | some (least, greatest) => digits.isEmpty || (least ≤ point && point ≤ greatest)

/-- The text of a finite number. A negative zero keeps its sign. -/
def write (f : NumberFormat) (x : Binary64) : List Char :=
  let d := x.shortest f.tie
  let digits := d.significant
  let text :=
    if f.isPositional digits d.point then f.positionalText digits d.point
    else scientificText digits d.point
  if x.negative then '-' :: text else text

end NumberFormat

end TableView
