import TableView.Instant.Text
import TableView.Json.Decode
import TableView.Record

/-!
# Values and records in JSON

A value is an alternative with its kind as the tag and its payload beside it; a
record is its id and an object of fields.
-/

namespace TableView

namespace ValueKind

/-- Spells a kind. -/
def toJson (k : ValueKind) : Json := .str k.name

/-- Reads a kind. -/
def ofJson? (access : Access) (v : Json) : Option ValueKind :=
  v.choice? access (all.map fun k => (k.name, k))

end ValueKind

/-- Reads an instant from its text. -/
def Instant.ofJson? (v : Json) : Option Instant := v.string?.bind Instant.ofText?

namespace Value

/-- Spells a value. -/
def toJson : Value → Json
  | empty => .obj [("type", .str "empty")]
  | text s => .obj [("type", .str "text"), ("value", .str s)]
  | number x => .obj [("type", .str "number"), ("value", .float x)]
  | boolean b => .obj [("type", .str "boolean"), ("value", .bool b)]
  | date t => .obj [("type", .str "date"), ("value", .str t.text)]
  | duration seconds => .obj [("type", .str "duration"), ("value", .int seconds.toInt)]
  | tag s => .obj [("type", .str "enum"), ("value", .str s)]
  | list items => .obj [("type", .str "list"), ("value", .ofStrings items)]

/-- The names of all alternatives. -/
def names : List String :=
  ["empty", "text", "number", "boolean", "date", "duration", "enum", "list"]

/-- Reads a value. -/
def ofJson? (access : Access) (v : Json) : Option Value := do
  let tagged ← v.taggedContent? access "type" "value" names
  match tagged.name with
  | "empty" => tagged.bare? empty
  | "text" => (tagged.required? fun _ c => c.string?).map text
  | "number" => (tagged.required? fun _ c => c.number?).map number
  | "boolean" => (tagged.required? fun _ c => c.bool?).map boolean
  | "date" => (tagged.required? fun _ c => Instant.ofJson? c).map date
  | "duration" => (tagged.required? fun _ c => c.int64?).map duration
  | "enum" => (tagged.required? fun _ c => c.string?).map tag
  | "list" => (tagged.required? fun _ c => c.list? Json.string?).map list
  | _ => none

end Value

namespace Record

/-- Spells a record. -/
def toJson (r : Record) : Json :=
  .obj [("id", .str r.id), ("fields", .obj (r.fields.map fun (key, v) => (key, v.toJson)))]

/-- Reads one field into those before it. Of fields with one key the last decides. -/
def readField (access : Access) (fields : List (String × Value)) (member : String × Json) :
    Option (List (String × Value)) :=
  (Value.ofJson? access member.2).map fun value => Entries.put member.1 value fields

/-- Reads the fields of a record. -/
def fieldsOfJson? (access : Access) : Json → Option (List (String × Value))
  | .obj members => members.foldlM (readField access) []
  | _ => none

/-- Reads a record. -/
def ofJson? (access : Access) (v : Json) : Option Record := do
  let fields ← v.fields? ["id", "fields"]
  let id ← fields.required? "id" Json.string?
  let entries ← fields.required? "fields" (fieldsOfJson? access)
  some ⟨id, entries⟩

end Record

end TableView
