import TableView.Catalog
import TableView.Definition.Value

/-!
# Columns and catalogs in JSON

The choices of a column are left out when there are none, and a column that does
not say whether it is locked is not.
-/

namespace TableView

namespace CellStyle

/-- Spells a style. -/
def toJson (s : CellStyle) : Json := .str s.name

/-- Reads a style. -/
def ofJson? (access : Access) (v : Json) : Option CellStyle :=
  v.choice? access (all.map fun s => (s.name, s))

end CellStyle

namespace Choice

/-- Spells a choice. -/
def toJson (c : Choice) : Json := .obj [("label", .str c.label), ("value", .str c.value)]

/-- Reads a choice. -/
def ofJson? (v : Json) : Option Choice := do
  let fields ← v.fields? ["label", "value"]
  let label ← fields.required? "label" Json.string?
  let value ← fields.required? "value" Json.string?
  some ⟨label, value⟩

end Choice

namespace Column

/-- Spells a column. -/
def toJson (c : Column) : Json :=
  .obj ([("key", .str c.key), ("heading", .str c.heading), ("type", c.style.toJson),
      ("valueType", c.kind.toJson)] ++
    (if c.choices.isEmpty then [] else [("selectOptions", .ofList Choice.toJson c.choices)]) ++
    [("locked", .bool c.locked)])

/-- Reads a column. -/
def ofJson? (access : Access) (v : Json) : Option Column := do
  let fields ← v.fields? ["key", "heading", "type", "valueType", "selectOptions", "locked"]
  let key ← fields.required? "key" Json.string?
  let heading ← fields.required? "heading" Json.string?
  let style ← fields.required? "type" (CellStyle.ofJson? access)
  let kind ← fields.required? "valueType" (ValueKind.ofJson? access)
  let choices ← fields.withDefault? "selectOptions" [] fun c => c.list? Choice.ofJson?
  let locked ← fields.withDefault? "locked" false Json.bool?
  some ⟨key, heading, style, kind, choices, locked⟩

end Column

namespace Page

/-- Spells a page. -/
def toJson (p : Page) : Json := .str p.name

/-- Reads a page. -/
def ofJson? (access : Access) (v : Json) : Option Page :=
  v.choice? access (all.map fun p => (p.name, p))

end Page

namespace Catalog

/-- Spells a catalog. -/
def toJson (c : Catalog) : Json :=
  .obj [("page", c.page.toJson), ("columns", .ofList Column.toJson c.columns),
    ("sortable", .ofStrings c.sortable), ("filterable", .ofStrings c.filterable)]

/-- Reads a catalog. -/
def ofJson? (access : Access) (v : Json) : Option Catalog := do
  let fields ← v.fields? ["page", "columns", "sortable", "filterable"]
  let page ← fields.required? "page" (Page.ofJson? access)
  let columns ← fields.required? "columns" fun c => c.list? (Column.ofJson? access)
  let sortable ← fields.required? "sortable" fun c => c.list? Json.string?
  let filterable ← fields.required? "filterable" fun c => c.list? Json.string?
  some ⟨page, columns, sortable, filterable⟩

end Catalog

end TableView
