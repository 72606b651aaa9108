import TableView.Filter.Checked
import TableView.Log
import TableView.View

/-!
# Rendering a view

Records are filtered, sorted and grouped. Whatever in the view does not fit the
schema is left out on the way: a clause keeps nothing, a sort key is skipped, a
grouping is not done. The issues of the three stages make up one warning.

`Renderer.renderWith` sorts with any routine, and gives no rendering where that gives
no result. `Renderer.render` sorts with merge sort, which every routine agrees with
where the sort keys order the records.
-/

namespace TableView

/-- A rendered view. -/
structure Rendered where
  rows : List Row
  warning : Option Warning
deriving DecidableEq

namespace Rendered

/-- How many records are shown. -/
def recordCount (r : Rendered) : Nat := r.rows.countP (!·.isSummary)

/-- How many summaries are shown. -/
def groupCount (r : Rendered) : Nat := r.rows.countP (·.isSummary)

/-- Whether nothing is shown. -/
def isEmpty (r : Rendered) : Bool := r.rows.isEmpty

/-- The ids of the records that are shown, in order. -/
def recordIds (r : Rendered) : List String := (r.rows.filterMap (·.record?)).map (·.id)

/-- The texts of all cells, row by row. -/
def display (r : Rendered) (columns : List Column) : List (List String) :=
  r.rows.map fun row => columns.map row.cellText

end Rendered

/-- How views are rendered: checked against a catalog or their own columns, in a layout. -/
structure Renderer where
  catalog : Option Catalog
  layout : Layout

namespace Renderer

/-- Renders views against their own columns in the standard layout. -/
def plain : Renderer := ⟨none, .standard⟩

/-- The schema that a view is checked against. -/
def schema (r : Renderer) (v : View) : Schema :=
  match r.catalog with
  | some c => .ofCatalog c
  | none => .ofColumns v.columns

/-- The records that the view's filter keeps. -/
def kept (r : Renderer) (v : View) (records : List Record) : List Record :=
  (v.filter.checked (r.schema v)).1.select records

/-- The field that rows are grouped by, if the schema knows it. -/
def grouping (r : Renderer) (v : View) : Option String :=
  match Group.issue? v.groupBy (r.schema v) with
  | none => v.groupBy
  | some _ => none

/-- The issues of all stages in their order. -/
def issues (r : Renderer) (v : View) : List Issue :=
  (v.filter.checked (r.schema v)).2 ++ (SortKey.allowed (r.schema v) v.sortKeys).2 ++
    (Group.issue? v.groupBy (r.schema v)).toList

/-- The warning about a view, which no record can change. -/
def warning (r : Renderer) (v : View) : Option Warning := Warning.of? (r.issues v)

/-- The rows of a view. -/
def rows (r : Renderer) (v : View) (records : List Record) : List Row :=
  let sorted := SortKey.sort (SortKey.allowed (r.schema v) v.sortKeys).1 (r.kept v records)
  Group.arrange (r.grouping v) v.columns sorted r.layout

/-- Renders a view over some records with a sorting routine, if that gives a result. -/
def renderWith (routine : SortRoutine Record) (r : Renderer) (v : View) (records : List Record) :
    Option Rendered :=
  (SortKey.sortWith routine (SortKey.allowed (r.schema v) v.sortKeys).1 (r.kept v records)).map
    fun sorted => ⟨Group.arrange (r.grouping v) v.columns sorted r.layout, r.warning v⟩

/-- Whether the sort keys that the schema allows order the records that the filter keeps. -/
def Orders (r : Renderer) (v : View) (records : List Record) : Prop :=
  OrdersAmong (r.kept v records) (SortKey.compareByAll (SortKey.allowed (r.schema v) v.sortKeys).1)

instance (r : Renderer) (v : View) (records : List Record) : Decidable (r.Orders v records) :=
  inferInstanceAs (Decidable (OrdersAmong _ _))

/-- Renders a view over some records, sorted with merge sort. -/
def render (r : Renderer) (v : View) (records : List Record) : Rendered :=
  ⟨r.rows v records, r.warning v⟩

/-- What rendering a view reports. -/
def log (r : Renderer) (v : View) (records : List Record) : List LogLine :=
  let total := toString records.length
  let passed := toString (r.kept v records).length
  [⟨.debug, "Rendering view '" ++ v.title ++ "' over " ++ total ++ " records"⟩,
    ⟨.trace, passed ++ " of " ++ total ++ " records passed the filter"⟩] ++
  match r.warning v with
  | none => []
  | some w => [⟨.warn, "View '" ++ v.title ++ "': " ++ w.message⟩]

theorem renderWith_merge (r : Renderer) (v : View) (records : List Record) :
    r.renderWith .merge v records = some (r.render v records) := by
  rw [renderWith, SortKey.sortWith_merge]
  rfl

theorem renderWith_of_orders {r : Renderer} {v : View} {records : List Record}
    (routine : SortRoutine Record) (orders : r.Orders v records) :
    r.renderWith routine v records = some (r.render v records) := by
  rw [renderWith, SortKey.sortWith_of_ordersAmong routine orders]
  rfl

/-- All sorting routines give a rendering exactly if the sort keys order the records. -/
theorem exists_renderWith_iff {r : Renderer} {v : View} {records : List Record} :
    (∀ routine, ∃ rendered, r.renderWith routine v records = some rendered) ↔
      r.Orders v records := by
  rw [Orders, ← SortKey.exists_sortWith_iff]
  refine forall_congr' fun routine => ?_
  simp only [renderWith, Option.map_eq_some_iff]
  constructor
  · rintro ⟨_, sorted, sorts, -⟩
    exact ⟨sorted, sorts⟩
  · rintro ⟨sorted, sorts⟩
    exact ⟨_, sorted, sorts, rfl⟩

@[simp] theorem render_rows (r : Renderer) (v : View) (records : List Record) :
    (r.render v records).rows = r.rows v records := rfl

@[simp] theorem render_warning (r : Renderer) (v : View) (records : List Record) :
    (r.render v records).warning = r.warning v := rfl

end Renderer

end TableView
