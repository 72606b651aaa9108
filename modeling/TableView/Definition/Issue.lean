import TableView.Definition.Value
import TableView.Issue

/-!
# Issues in JSON

An issue carries its kind among its fields, so its fields are held back until the
kind is known.
-/

namespace TableView

namespace Section

/-- The name of a section. -/
def name : Section → String
  | filter => "filter"
  | sort => "sort"
  | grouping => "groupBy"

/-- Reads a section. -/
def ofJson? (access : Access) (v : Json) : Option Section :=
  v.choice? access [("filter", filter), ("sort", sort), ("groupBy", grouping)]

end Section

namespace Issue

/-- Spells an issue. -/
def toJson : Issue → Json
  | unknownColumn place key =>
    .obj [("kind", .str "unknownColumn"), ("section", .str place.name), ("column_key", .str key)]
  | incompatibleCondition key condition kind =>
    .obj [("kind", .str "incompatibleCondition"), ("column_key", .str key),
      ("condition", .str condition), ("value_type", kind.toJson)]
  | notSortable key => .obj [("kind", .str "notSortable"), ("column_key", .str key)]
  | notFilterable key => .obj [("kind", .str "notFilterable"), ("column_key", .str key)]

/-- Reads the key of an issue that has nothing else. -/
def key? (v : Json) : Option String :=
  (v.fields? ["column_key"]).bind fun fields => fields.required? "column_key" Json.string?

/-- Reads an issue. -/
def ofJson? (access : Access) (v : Json) : Option Issue := do
  let (name, rest) ← v.taggedFields? access "kind"
    ["unknownColumn", "incompatibleCondition", "notSortable", "notFilterable"]
  match name with
  | "unknownColumn" => do
    let fields ← rest.fields? ["section", "column_key"]
    let place ← fields.required? "section" (Section.ofJson? .held)
    let key ← fields.required? "column_key" Json.string?
    some (unknownColumn place key)
  | "incompatibleCondition" => do
    let fields ← rest.fields? ["column_key", "condition", "value_type"]
    let key ← fields.required? "column_key" Json.string?
    let condition ← fields.required? "condition" Json.string?
    let kind ← fields.required? "value_type" (ValueKind.ofJson? .held)
    some (incompatibleCondition key condition kind)
  | "notSortable" => (key? rest).map notSortable
  | "notFilterable" => (key? rest).map notFilterable
  | _ => none

end Issue

namespace Warning

/-- Spells a warning. -/
def toJson (w : Warning) : Json := .obj [("issues", .ofList Issue.toJson w.issues)]

/-- Reads a warning. -/
def ofJson? (access : Access) (v : Json) : Option Warning := do
  let fields ← v.fields? ["issues"]
  let issues ← fields.required? "issues" fun c => c.list? (Issue.ofJson? access)
  some ⟨issues⟩

end Warning

end TableView
