import TableView.Definition.Value
import TableView.Group

/-!
# Rows in JSON

Rendered rows are written for the table that shows them and never read back.
-/

namespace TableView

/-- Spells a summary. -/
def Summary.toJson (s : Summary) : Json :=
  .obj [("columnKey", .str s.columnKey), ("key", s.key.toJson), ("label", .str s.label),
    ("memberCount", .int s.memberCount),
    ("values", .obj (s.values.map fun (key, v) => (key, v.toJson)))]

/-- Spells a row. -/
def Row.toJson : Row → Json
  | summary s => .obj [("rowType", .str "groupSummary"), ("row", s.toJson)]
  | record r => .obj [("rowType", .str "record"), ("row", r.toJson)]

end TableView
