import TableView.Condition
import TableView.Text.Search

/-!
# Matching conditions

Whether a value meets a condition. An empty value meets nothing but `isEmpty`, a
value of a kind that the condition does not read meets nothing at all, and NaN
meets no number test, not even a negated one.
-/

namespace TableView

/-- Whether a number passes a test. -/
def NumberTest.accepts (test : NumberTest) (x : Binary64) : Bool :=
  !x.isNaN && match test with
    | equals value => x.eq value
    | notEquals value => !x.eq value
    | greaterThan value => value.lt x
    | greaterThanOrEqual value => value.le x
    | lessThan value => x.lt value
    | lessThanOrEqual value => x.le value
    | between least greatest => least.le x && x.le greatest
    | notBetween least greatest => x.lt least || greatest.lt x

namespace TextOperator

/-- The comparison that a negated one denies. -/
def denied? : TextOperator → Option TextOperator
  | notContains => some contains
  | notEquals => some equals
  | _ => none

/-- Compares two texts that are already lowercase. -/
def holds (operator : TextOperator) (text value : String) : Bool :=
  match operator with
  | contains => Text.contains text value
  | notContains => !Text.contains text value
  | equals => text = value
  | notEquals => text ≠ value
  | beginsWith => Text.beginsWith text value
  | endsWith => Text.endsWith text value

end TextOperator

namespace TextTest

/-- Whether a text passes a test. -/
def accepts (test : TextTest) (text : String) : Bool :=
  test.operator.holds (Text.lowercase text) (Text.lowercase test.value)

/-- Whether a list passes a test: some item does, or for a negated comparison no item
passes the one it denies. -/
def acceptsList (test : TextTest) (items : List String) : Bool :=
  match test.operator.denied? with
  | some operator => !items.any ({ test with operator := operator } : TextTest).accepts
  | none => items.any test.accepts

end TextTest

namespace TagTest

/-- Whether a tag passes a test. -/
def accepts (test : TagTest) (tag : String) : Bool :=
  match test with
  | oneOf tags => tags.contains tag
  | noneOf tags => !tags.contains tag

/-- Whether a list passes a test: some item is a member, or none is. -/
def acceptsList (test : TagTest) (items : List String) : Bool :=
  match test with
  | oneOf tags => items.any tags.contains
  | noneOf tags => !items.any tags.contains

end TagTest

/-- Whether an instant passes a test. -/
def DateTest.accepts (test : DateTest) (t : Instant) : Bool :=
  match test with
  | before value => t.isBefore value
  | after value => value.isBefore t
  | between start finish => start.isAtMost t && t.isAtMost finish

namespace Condition

/-- Whether a value that is not empty meets a condition on its kind. Durations may also be
delivered as plain numbers of seconds, and tags as texts. -/
def acceptsPresent : Condition → Value → Bool
  | number test, .number x => test.accepts x
  | duration test, .duration seconds => test.accepts (.ofInt seconds.toInt)
  | duration test, .number x => test.accepts x
  | text test, .text s => test.accepts s
  | text test, .tag s => test.accepts s
  | text test, .list items => test.acceptsList items
  | tag test, .tag s => test.accepts s
  | tag test, .text s => test.accepts s
  | tag test, .list items => test.acceptsList items
  | date test, .date t => test.accepts t
  | boolean expected, .boolean b => b = expected
  | _, _ => false

/-- Whether a value meets a condition. -/
def accepts (c : Condition) (v : Value) : Bool :=
  match c with
  | isEmpty => v.isEmpty
  | isNotEmpty => !v.isEmpty
  | c => !v.isEmpty && c.acceptsPresent v

@[simp] theorem accepts_isEmpty (v : Value) : isEmpty.accepts v = v.isEmpty := rfl

@[simp] theorem accepts_isNotEmpty (v : Value) : isNotEmpty.accepts v = !v.isEmpty := rfl

end Condition

end TableView
