import TableView.Value

/-!
# Conditions

What a filter can ask of one value. Each condition belongs to some kinds of
columns (`Condition.appliesTo`), so that a condition which makes no sense for a
column can be reported instead of tried.
-/

namespace TableView

/-- A test of a number, or of a duration in seconds. -/
inductive NumberTest where
  | equals (value : Binary64)
  | notEquals (value : Binary64)
  | greaterThan (value : Binary64)
  | greaterThanOrEqual (value : Binary64)
  | lessThan (value : Binary64)
  | lessThanOrEqual (value : Binary64)
  | between (least greatest : Binary64)
  | notBetween (least greatest : Binary64)
deriving DecidableEq

/-- How a text is compared, always without regard to case. -/
inductive TextOperator where
  | contains
  | notContains
  | equals
  | notEquals
  | beginsWith
  | endsWith
deriving DecidableEq

/-- A test of a text. -/
structure TextTest where
  operator : TextOperator
  value : String
deriving DecidableEq

/-- A test of a tag by membership. -/
inductive TagTest where
  | oneOf (tags : List String)
  | noneOf (tags : List String)
deriving DecidableEq

/-- A test of an instant. The ends of an interval belong to it. -/
inductive DateTest where
  | before (value : Instant)
  | after (value : Instant)
  | between (start finish : Instant)
deriving DecidableEq

/-- What a filter asks of a value. -/
inductive Condition where
  | number (test : NumberTest)
  | duration (test : NumberTest)
  | text (test : TextTest)
  | tag (test : TagTest)
  | date (test : DateTest)
  | boolean (expected : Bool)
  | isEmpty
  | isNotEmpty
deriving DecidableEq

namespace Condition

/-- Whether the condition makes sense for a column of a kind. -/
def appliesTo : Condition → ValueKind → Bool
  | isEmpty, _ => true
  | isNotEmpty, _ => true
  | number _, kind => kind = .number
  | duration _, kind => kind = .duration
  | text _, kind => kind = .text || kind = .tag || kind = .list
  | tag _, kind => kind = .tag || kind = .list
  | date _, kind => kind = .date
  | boolean _, kind => kind = .boolean

/-- The name of the condition in definitions and messages. -/
def name : Condition → String
  | number _ => "number"
  | duration _ => "duration"
  | text _ => "text"
  | tag _ => "enum"
  | date _ => "date"
  | boolean _ => "boolean"
  | isEmpty => "isEmpty"
  | isNotEmpty => "isNotEmpty"

end Condition

end TableView
