import TableView.Definition.Column
import TableView.Definition.Filter
import TableView.View

/-!
# Views in JSON

Sort keys, groupings, layouts, views and the views of a page. All fields of a view
but its title and its columns may be left out.
-/

namespace TableView

namespace Direction

/-- The name of a direction. -/
def name : Direction → String
  | ascending => "ascending"
  | descending => "descending"

/-- Reads a direction. -/
def ofJson? (access : Access) (v : Json) : Option Direction :=
  v.choice? access [("ascending", ascending), ("descending", descending)]

end Direction

namespace SortKey

/-- Spells a sort key. -/
def toJson (k : SortKey) : Json :=
  .obj [("columnKey", .str k.columnKey), ("direction", .str k.direction.name)]

/-- Reads a sort key, ascending unless it says otherwise. -/
def ofJson? (access : Access) (v : Json) : Option SortKey := do
  let fields ← v.fields? ["columnKey", "direction"]
  let key ← fields.required? "columnKey" Json.string?
  let direction ← fields.withDefault? "direction" .ascending (Direction.ofJson? access)
  some ⟨key, direction⟩

end SortKey

namespace Grouping

/-- Spells the field that rows are grouped by. -/
def toJson (columnKey : String) : Json := .obj [("columnKey", .str columnKey)]

/-- Reads the field that rows are grouped by. -/
def ofJson? (v : Json) : Option String :=
  (v.fields? ["columnKey"]).bind fun fields => fields.required? "columnKey" Json.string?

end Grouping

namespace SummaryPlace

/-- The name of a place. -/
def name : SummaryPlace → String
  | top => "AtTop"
  | bottom => "AtBottom"

/-- Reads a place. -/
def ofJson? (access : Access) (v : Json) : Option SummaryPlace :=
  v.choice? access [("AtTop", top), ("AtBottom", bottom)]

end SummaryPlace

namespace Layout

/-- Spells a layout. -/
def toJson (l : Layout) : Json :=
  .obj [("blankLabel", .str l.blankLabel), ("subtotalLocation", .str l.summaryPlace.name)]

/-- Reads a layout. -/
def ofJson? (access : Access) (v : Json) : Option Layout := do
  let fields ← v.fields? ["blankLabel", "subtotalLocation"]
  let label ← fields.withDefault? "blankLabel" standard.blankLabel Json.string?
  let place ← fields.withDefault? "subtotalLocation" standard.summaryPlace
    (SummaryPlace.ofJson? access)
  some ⟨label, place⟩

end Layout

namespace View

/-- Spells a view. -/
def toJson (v : View) : Json :=
  .obj [("id", .ofOption (fun id => .int id.toNat) v.id), ("title", .str v.title),
    ("columns", .ofList Column.toJson v.columns), ("filters", v.filter.toJson),
    ("sortBy", .ofList SortKey.toJson v.sortKeys),
    ("groupBy", .ofOption Grouping.toJson v.groupBy)]

/-- Reads a view. -/
def ofJson? (access : Access) (v : Json) : Option View := do
  let fields ← v.fields? ["id", "title", "columns", "filters", "sortBy", "groupBy"]
  let id ← fields.withDefault? "id" none fun c => c.nullable? Json.uint32?
  let title ← fields.required? "title" Json.string?
  let columns ← fields.required? "columns" fun c => c.list? (Column.ofJson? access)
  let filter ← fields.withDefault? "filters" .everything Filter.ofJson?
  let keys ← fields.withDefault? "sortBy" [] fun c => c.list? (SortKey.ofJson? access)
  let groupBy ← fields.withDefault? "groupBy" none fun c => c.nullable? Grouping.ofJson?
  some ⟨id, title, columns, filter, keys, groupBy⟩

end View

namespace PageViews

/-- Spells the views of a page. -/
def toJson (p : PageViews) : Json :=
  .obj [("page", p.page.toJson), ("views", .ofList View.toJson p.views),
    ("selectedViewIndex", .int p.selected)]

/-- Reads the views of a page, the first one selected unless they say otherwise. -/
def ofJson? (access : Access) (v : Json) : Option PageViews := do
  let fields ← v.fields? ["page", "views", "selectedViewIndex"]
  let page ← fields.required? "page" (Page.ofJson? access)
  let views ← fields.required? "views" fun c => c.list? (View.ofJson? access)
  let selected ← fields.withDefault? "selectedViewIndex" 0 Json.index?
  some ⟨page, views, selected⟩

end PageViews

end TableView
