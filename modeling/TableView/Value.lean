import TableView.Decimal.Notation
import TableView.Duration
import TableView.Instant.Text

/-!
# Cell values

The value of a table cell and the kind that a column declares for its values.
`Value.isEmpty` is what a filter calls empty; `Value.isBlank` also counts NaN, and
is what sorting puts last and grouping puts together.
-/

namespace TableView

/-- What kind of values a column holds. -/
inductive ValueKind where
  | text
  | number
  | boolean
  | date
  | duration
  | tag
  | list
deriving DecidableEq

namespace ValueKind

/-- The name of a kind in definitions and messages. -/
def name : ValueKind → String
  | text => "string"
  | number => "number"
  | boolean => "boolean"
  | date => "date"
  | duration => "duration"
  | tag => "enum"
  | list => "array"

/-- All kinds. -/
def all : List ValueKind := [text, number, boolean, date, duration, tag, list]

/-- Whether values of the kind are added up when rows are grouped. -/
def isSummed : ValueKind → Bool
  | number => true
  | duration => true
  | _ => false

end ValueKind

/-- The value of a cell. Durations are whole seconds; a tag is one of a column's choices. -/
inductive Value where
  | empty
  | text (s : String)
  | number (x : Binary64)
  | boolean (b : Bool)
  | date (t : Instant)
  | duration (seconds : Int64)
  | tag (s : String)
  | list (items : List String)
deriving DecidableEq

namespace Value

instance : Inhabited Value := ⟨empty⟩

/-- The kind of a value; an empty one has none. -/
def kind? : Value → Option ValueKind
  | empty => none
  | text _ => some .text
  | number _ => some .number
  | boolean _ => some .boolean
  | date _ => some .date
  | duration _ => some .duration
  | tag _ => some .tag
  | list _ => some .list

/-- Whether nothing is there: no value, no character or no item. -/
def isEmpty : Value → Bool
  | empty => true
  | text s => s.isEmpty
  | tag s => s.isEmpty
  | list items => items.isEmpty
  | _ => false

/-- Whether the value has no place in an order: it is empty or not a number. -/
def isBlank : Value → Bool
  | number x => x.isNaN
  | v => v.isEmpty

/-- The magnitude of a number or a duration. -/
def magnitude? : Value → Option Binary64
  | number x => some x
  | duration seconds => some (.ofInt seconds.toInt)
  | _ => none

/-- The characters of a text or a tag. -/
def string? : Value → Option String
  | text s => some s
  | tag s => some s
  | _ => none

/-- Numbers shown to people: never an exponent, and no fraction that says nothing. -/
def numberFormat : NumberFormat := ⟨.awayFromZero, none, false⟩

/-- The text of a number shown to people. -/
def numberText (x : Binary64) : String :=
  if x.isNaN then "NaN"
  else if x.isFinite then String.ofList (numberFormat.write x)
  else if x.negative then "-inf" else "inf"

/-- The text of a value shown to people. -/
def display : Value → String
  | empty => ""
  | text s => s
  | number x => numberText x
  | boolean b => if b then "TRUE" else "FALSE"
  | date t => t.display
  | duration seconds => Duration.text seconds
  | tag s => s
  | list items => ", ".intercalate items

theorem isEmpty_of_not_isBlank {v : Value} (present : v.isBlank = false) : v.isEmpty = false := by
  cases v <;> simp_all [isBlank, isEmpty]

end Value

end TableView
