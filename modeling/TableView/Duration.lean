/-!
# The text of a duration

A duration is a whole number of seconds, shown as days, hours, minutes and
seconds. Leading units that are zero are left out; all later ones are shown.
-/

namespace TableView.Duration

/-- An amount of seconds split into days, hours, minutes and seconds. -/
def units (seconds : Nat) : List (Nat × Char) :=
  [(seconds / 86400, 'd'), (seconds % 86400 / 3600, 'h'), (seconds % 3600 / 60, 'm'),
    (seconds % 60, 's')]

/-- An amount with its unit. -/
def unitText (amount : Nat × Char) : List Char := Nat.toDigits 10 amount.1 ++ [amount.2]

/-- Amounts with their units, separated by single blanks. -/
def joinUnits : List (Nat × Char) → List Char
  | [] => []
  | [amount] => unitText amount
  | amount :: rest => unitText amount ++ ' ' :: joinUnits rest

/-- An amount of seconds from its first unit that is not zero; no time at all is `0s`. -/
def magnitudeText (seconds : Nat) : List Char :=
  match (units seconds).dropWhile (·.1 == 0) with
  | [] => ['0', 's']
  | shown => joinUnits shown

/-- The text of a duration in seconds, with a sign when it is negative. -/
def text (seconds : Int64) : String :=
  let magnitude := magnitudeText seconds.toInt.natAbs
  String.ofList (if seconds.toInt < 0 then '-' :: magnitude else magnitude)

end TableView.Duration
