import TableView.Catalog
import TableView.Issue

/-!
# Schemas

The columns that a view is checked against: its own, or those of a catalog, which
also restricts the keys that may be sorted and filtered.
-/

namespace TableView

/-- The columns a view may refer to. A list of keys, where there is one, restricts them. -/
structure Schema where
  columns : List Column
  sortable : Option (List String)
  filterable : Option (List String)

namespace Schema

/-- The schema of a view's own columns, which restricts nothing. -/
def ofColumns (columns : List Column) : Schema := ⟨columns, none, none⟩

/-- The schema of a catalog. -/
def ofCatalog (c : Catalog) : Schema := ⟨c.columns, some c.sortable, some c.filterable⟩

/-- The first column with a key. -/
def column? (s : Schema) (key : String) : Option Column := Column.find? s.columns key

/-- Whether a section may use a key. -/
def permits (s : Schema) (place : Section) (key : String) : Bool :=
  match place with
  | .filter => s.filterable.all (·.contains key)
  | .sort => s.sortable.all (·.contains key)
  | .grouping => true

/-- The issue of a section that may not use a column. -/
def refusal (place : Section) (key : String) : Issue :=
  match place with
  | .sort => .notSortable key
  | _ => .notFilterable key

/-- Looks up a column for a section. An unknown key is reported before a restricted one. -/
def resolve (s : Schema) (place : Section) (key : String) : Except Issue Column :=
  match s.column? key with
  | none => .error (.unknownColumn place key)
  | some column => if s.permits place key then .ok column else .error (refusal place key)

end Schema

end TableView
