import TableView.Definition.View
import TableView.Edit

/-!
# Edits in JSON

An edit carries its name among its fields, so its fields are held back until the
name is known.
-/

namespace TableView

namespace ColumnChange

/-- Spells a change. What stays as it is is left out. -/
def toJson (c : ColumnChange) : Json :=
  .obj ((c.heading.toList.map fun heading => ("heading", .str heading)) ++
    (c.style.toList.map fun style => ("type", style.toJson)))

/-- Reads a change. -/
def ofJson? (access : Access) (v : Json) : Option ColumnChange := do
  let fields ← v.fields? ["heading", "type"]
  let heading ← fields.withDefault? "heading" none fun c => c.nullable? Json.string?
  let style ← fields.withDefault? "type" none fun c => c.nullable? (CellStyle.ofJson? access)
  some ⟨heading, style⟩

end ColumnChange

namespace Edit

/-- The fields of a change of one view, besides the position of the view. -/
def viewEditMembers : ViewEdit → List (String × Json)
  | .addColumn column => [("column", column.toJson)]
  | .deleteColumn index => [("columnIndex", .int index)]
  | .changeColumn index change => [("columnIndex", .int index), ("update", change.toJson)]
  | .moveColumn source target => [("fromIndex", .int source), ("toIndex", .int target)]
  | .setFilter filter => [("filters", filter.toJson)]
  | .setSortKeys keys => [("sortBy", .ofList SortKey.toJson keys)]
  | .setGroupBy groupBy => [("groupBy", .ofOption Grouping.toJson groupBy)]
  | .setTitle title => [("title", .str title)]
  | .setId id => [("id", .int id.toNat)]

/-- The fields of an edit besides its name. -/
def members : Edit → List (String × Json)
  | inView index edit => ("viewIndex", .int index) :: viewEditMembers edit
  | selectView index => [("viewIndex", .int index)]
  | addView view => [("view", view.toJson)]
  | deleteView index => [("viewIndex", .int index)]

/-- Spells an edit. -/
def toJson (e : Edit) : Json := .obj (("type", .str e.name) :: e.members)

/-- The names of all edits. -/
def names : List String :=
  ["addColumn", "deleteColumn", "updateColumn", "updateColumnsOrder", "updateFilters", "updateSort",
    "updateGroupBy", "selectView", "addView", "deleteView", "updateTitle", "markSaved"]

/-- Reads a change of one view with some fields. -/
def inView? (v : Json) (names : List String) (decode : Json.Fields → Option ViewEdit) :
    Option Edit := do
  let fields ← v.fields? ("viewIndex" :: names)
  let index ← fields.required? "viewIndex" Json.index?
  let edit ← decode fields
  some (inView index edit)

/-- Reads the position of a view. -/
def viewIndex? (v : Json) : Option Nat :=
  (v.fields? ["viewIndex"]).bind fun fields => fields.required? "viewIndex" Json.index?

/-- Reads the fields of an edit with a name. -/
def ofFields? (name : String) (v : Json) : Option Edit :=
  match name with
  | "addColumn" => inView? v ["column"] fun fields =>
    (fields.required? "column" (Column.ofJson? .held)).map .addColumn
  | "deleteColumn" => inView? v ["columnIndex"] fun fields =>
    (fields.required? "columnIndex" Json.index?).map .deleteColumn
  | "updateColumn" => inView? v ["columnIndex", "update"] fun fields => do
    let index ← fields.required? "columnIndex" Json.index?
    let change ← fields.required? "update" (ColumnChange.ofJson? .held)
    some (.changeColumn index change)
  | "updateColumnsOrder" => inView? v ["fromIndex", "toIndex"] fun fields => do
    let source ← fields.required? "fromIndex" Json.index?
    let target ← fields.required? "toIndex" Json.index?
    some (.moveColumn source target)
  | "updateFilters" => inView? v ["filters"] fun fields =>
    (fields.required? "filters" Filter.ofJson?).map .setFilter
  | "updateSort" => inView? v ["sortBy"] fun fields =>
    (fields.required? "sortBy" fun c => c.list? (SortKey.ofJson? .held)).map .setSortKeys
  | "updateGroupBy" => inView? v ["groupBy"] fun fields =>
    (fields.optional? "groupBy" Grouping.ofJson?).map .setGroupBy
  | "updateTitle" => inView? v ["title"] fun fields =>
    (fields.required? "title" Json.string?).map .setTitle
  | "markSaved" => inView? v ["id"] fun fields =>
    (fields.required? "id" Json.uint32?).map .setId
  | "selectView" => (viewIndex? v).map selectView
  | "deleteView" => (viewIndex? v).map deleteView
  | "addView" => (v.fields? ["view"]).bind fun fields =>
    (fields.required? "view" (View.ofJson? .held)).map addView
  | _ => none

/-- Reads an edit. -/
def ofJson? (access : Access) (v : Json) : Option Edit := do
  let (name, rest) ← v.taggedFields? access "type" names
  ofFields? name rest

end Edit

end TableView
