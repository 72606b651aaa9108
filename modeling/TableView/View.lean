import TableView.Filter
import TableView.Group
import TableView.Sort

/-!
# Views

A view is a saved way of looking at a table: which columns it shows, which records
it keeps, how it sorts and whether it groups them. A page has several views and
shows one of them.
-/

namespace TableView

/-- A saved way of looking at a table. A view that was never saved has no id. -/
structure View where
  id : Option UInt32
  title : String
  columns : List Column
  filter : Filter
  sortKeys : List SortKey
  groupBy : Option String

namespace View

/-- The view that shows some columns of all records, as they come. -/
def plain (title : String) (columns : List Column) : View :=
  ⟨none, title, columns, .everything, [], none⟩

/-- Where the first column with a key stands. -/
def columnIndex? (v : View) (key : String) : Option Nat :=
  v.columns.findIdx? (·.key == key)

/-- Whether the view shows a column with a key. -/
def shows (v : View) (key : String) : Bool := v.columns.any (·.key == key)

/-- The locked columns of a catalog that the view does not show. -/
def missingLocked (v : View) (c : Catalog) : List Column :=
  c.lockedColumns.filter fun column => !v.shows column.key

/-- Puts the missing locked columns of a catalog in front, in catalog order. -/
def withLocked (v : View) (c : Catalog) : View :=
  { v with columns := v.missingLocked c ++ v.columns }

/-- `withLocked`, together with the number of columns that it puts in front. -/
def ensureLocked (v : View) (c : Catalog) : View × Nat :=
  (v.withLocked c, (v.missingLocked c).length)

@[simp] theorem withLocked_title (v : View) (c : Catalog) : (v.withLocked c).title = v.title := rfl

@[simp] theorem withLocked_id (v : View) (c : Catalog) : (v.withLocked c).id = v.id := rfl

@[simp] theorem withLocked_columns (v : View) (c : Catalog) :
    (v.withLocked c).columns = v.missingLocked c ++ v.columns := rfl

end View

/-- The views of a page and the position of the one that is shown. -/
structure PageViews where
  page : Page
  views : List View
  selected : Nat

/-- The view that is shown, if the position is that of a view. -/
def PageViews.selectedView? (p : PageViews) : Option View := p.views[p.selected]?

end TableView
