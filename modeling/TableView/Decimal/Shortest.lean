import TableView.Decimal.Basic

/-!
# The shortest decimal that reads back

`Binary64.shortest` is the decimal with the fewest digits whose nearest number is
the given one, and of several such decimals the one closest to it. Coarse grids
are tried first: on each only the two neighbours of the number can be closest, and
the grid of its exact expansion always has a hit.
-/

namespace TableView

/-- Which of two equally close decimals is written. -/
inductive Tie where
  | toEven
  | awayFromZero
deriving DecidableEq

/-- The one or two multiples of `10 ^ grid` next to `n`, as numbers of grid units, the
closer one first. -/
def Decimal.neighbours (tie : Tie) (n grid : Nat) : List Nat :=
  let low := n / powerOfTen grid
  let rest := n % powerOfTen grid
  if rest = 0 then [low]
  else if 2 * rest < powerOfTen grid then [low, low + 1]
  else if 2 * rest > powerOfTen grid then [low + 1, low]
  else if tie = .toEven ∧ low % 2 = 0 then [low, low + 1]
  else [low + 1, low]

namespace Binary64

/-- The decimals next to a number on one grid, the closer one first. -/
def decimalsNear (tie : Tie) (x : Binary64) (grid : Nat) : List Decimal :=
  (Decimal.neighbours tie x.exactDigits grid).map fun digits => ⟨digits, (grid : Int) - 1074⟩

/-- The first decimal on a grid that reads back as the number. -/
def readBackOn? (tie : Tie) (x : Binary64) (grid : Nat) : Option Decimal :=
  (x.decimalsNear tie grid).find? fun d => d.toBinary64 x.negative = x

/-- The shortest decimal that reads back as a finite number. -/
def shortest (tie : Tie) (x : Binary64) : Decimal :=
  let grids := (List.range (Nat.toDigits 10 x.exactDigits).length).reverse
  (grids.findSome? (x.readBackOn? tie)).getD ⟨x.exactDigits, -1074⟩

theorem toBinary64_of_readBackOn? {tie : Tie} {x : Binary64} {grid : Nat} {d : Decimal}
    (h : x.readBackOn? tie grid = some d) : d.toBinary64 x.negative = x := by
  simpa using List.find?_some h

end Binary64

end TableView
