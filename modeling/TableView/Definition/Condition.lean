import TableView.Condition
import TableView.Definition.Value

/-!
# Conditions in JSON

A condition is an alternative with its name as the tag and its test beside it.
Tests of numbers and instants carry their tag among their fields, so their fields
are held back until the tag is known.
-/

namespace TableView

namespace NumberTest

/-- The names of the tests. -/
def names : List String :=
  ["equals", "notEquals", "greaterThan", "greaterThanOrEqual", "lessThan", "lessThanOrEqual",
    "between", "notBetween"]

/-- Spells a test against one number. -/
def againstToJson (name : String) (value : Binary64) : Json :=
  .obj [("op", .str name), ("value", .float value)]

/-- Spells a test against two numbers. -/
def rangeToJson (name : String) (least greatest : Binary64) : Json :=
  .obj [("op", .str name), ("min", .float least), ("max", .float greatest)]

/-- Spells a test. -/
def toJson : NumberTest → Json
  | equals value => againstToJson "equals" value
  | notEquals value => againstToJson "notEquals" value
  | greaterThan value => againstToJson "greaterThan" value
  | greaterThanOrEqual value => againstToJson "greaterThanOrEqual" value
  | lessThan value => againstToJson "lessThan" value
  | lessThanOrEqual value => againstToJson "lessThanOrEqual" value
  | between least greatest => rangeToJson "between" least greatest
  | notBetween least greatest => rangeToJson "notBetween" least greatest

/-- Reads the fields of a test against one number. -/
def against? (v : Json) : Option Binary64 :=
  (v.fields? ["value"]).bind fun fields => fields.required? "value" Json.number?

/-- Reads the fields of a test against two numbers. -/
def range? (v : Json) : Option (Binary64 × Binary64) := do
  let fields ← v.fields? ["min", "max"]
  let least ← fields.required? "min" Json.number?
  let greatest ← fields.required? "max" Json.number?
  some (least, greatest)

/-- Reads a test. -/
def ofJson? (access : Access) (v : Json) : Option NumberTest := do
  let (name, rest) ← v.taggedFields? access "op" names
  match name with
  | "equals" => (against? rest).map equals
  | "notEquals" => (against? rest).map notEquals
  | "greaterThan" => (against? rest).map greaterThan
  | "greaterThanOrEqual" => (against? rest).map greaterThanOrEqual
  | "lessThan" => (against? rest).map lessThan
  | "lessThanOrEqual" => (against? rest).map lessThanOrEqual
  | "between" => (range? rest).map fun (least, greatest) => between least greatest
  | "notBetween" => (range? rest).map fun (least, greatest) => notBetween least greatest
  | _ => none

end NumberTest

namespace TextOperator

/-- The name of a comparison. -/
def name : TextOperator → String
  | contains => "contains"
  | notContains => "notContains"
  | equals => "equals"
  | notEquals => "notEquals"
  | beginsWith => "beginsWith"
  | endsWith => "endsWith"

/-- All comparisons. -/
def all : List TextOperator := [contains, notContains, equals, notEquals, beginsWith, endsWith]

/-- Reads a comparison. -/
def ofJson? (access : Access) (v : Json) : Option TextOperator :=
  v.choice? access (all.map fun o => (o.name, o))

end TextOperator

namespace TextTest

/-- Spells a test. -/
def toJson (test : TextTest) : Json :=
  .obj [("operator", .str test.operator.name), ("value", .str test.value)]

/-- Reads a test. -/
def ofJson? (access : Access) (v : Json) : Option TextTest := do
  let fields ← v.fields? ["operator", "value"]
  let operator ← fields.required? "operator" (TextOperator.ofJson? access)
  let value ← fields.required? "value" Json.string?
  some ⟨operator, value⟩

end TextTest

namespace TagTest

/-- Spells a test. -/
def toJson : TagTest → Json
  | oneOf tags => .obj [("op", .str "in"), ("values", .ofStrings tags)]
  | noneOf tags => .obj [("op", .str "notIn"), ("values", .ofStrings tags)]

/-- Reads a test. -/
def ofJson? (access : Access) (v : Json) : Option TagTest := do
  let tagged ← v.taggedContent? access "op" "values" ["in", "notIn"]
  match tagged.name with
  | "in" => (tagged.required? fun _ c => c.list? Json.string?).map oneOf
  | "notIn" => (tagged.required? fun _ c => c.list? Json.string?).map noneOf
  | _ => none

end TagTest

namespace DateTest

/-- Spells a test. -/
def toJson : DateTest → Json
  | before value => .obj [("op", .str "before"), ("value", .str value.text)]
  | after value => .obj [("op", .str "after"), ("value", .str value.text)]
  | between start finish =>
    .obj [("op", .str "between"), ("start", .str start.text), ("end", .str finish.text)]

/-- Reads the fields of a test against one instant. -/
def against? (v : Json) : Option Instant :=
  (v.fields? ["value"]).bind fun fields => fields.required? "value" Instant.ofJson?

/-- Reads the fields of a test against two instants. -/
def range? (v : Json) : Option (Instant × Instant) := do
  let fields ← v.fields? ["start", "end"]
  let start ← fields.required? "start" Instant.ofJson?
  let finish ← fields.required? "end" Instant.ofJson?
  some (start, finish)

/-- Reads a test. -/
def ofJson? (access : Access) (v : Json) : Option DateTest := do
  let (name, rest) ← v.taggedFields? access "op" ["before", "after", "between"]
  match name with
  | "before" => (against? rest).map before
  | "after" => (against? rest).map after
  | "between" => (range? rest).map fun (start, finish) => between start finish
  | _ => none

end DateTest

namespace Condition

/-- The members of an object that spell a condition. -/
def members : Condition → List (String × Json)
  | number test => [("kind", .str "number"), ("condition", test.toJson)]
  | duration test => [("kind", .str "duration"), ("condition", test.toJson)]
  | text test => [("kind", .str "text"), ("condition", test.toJson)]
  | tag test => [("kind", .str "enum"), ("condition", test.toJson)]
  | date test => [("kind", .str "date"), ("condition", test.toJson)]
  | boolean expected => [("kind", .str "boolean"), ("condition", .bool expected)]
  | isEmpty => [("kind", .str "isEmpty")]
  | isNotEmpty => [("kind", .str "isNotEmpty")]

/-- Spells a condition. -/
def toJson (c : Condition) : Json := .obj c.members

/-- The names of all conditions. -/
def names : List String :=
  ["number", "duration", "text", "enum", "date", "boolean", "isEmpty", "isNotEmpty"]

/-- Reads a condition. -/
def ofJson? (access : Access) (v : Json) : Option Condition := do
  let tagged ← v.taggedContent? access "kind" "condition" names
  match tagged.name with
  | "number" => (tagged.required? NumberTest.ofJson?).map number
  | "duration" => (tagged.required? NumberTest.ofJson?).map duration
  | "text" => (tagged.required? TextTest.ofJson?).map text
  | "enum" => (tagged.required? TagTest.ofJson?).map tag
  | "date" => (tagged.required? DateTest.ofJson?).map date
  | "boolean" => (tagged.required? fun _ c => c.bool?).map boolean
  | "isEmpty" => tagged.bare? isEmpty
  | "isNotEmpty" => tagged.bare? isNotEmpty
  | _ => none

end Condition

end TableView
