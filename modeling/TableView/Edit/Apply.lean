import TableView.Edit

/-!
# Applying edits

An edit either yields new views of the page or is rejected, and then nothing has
changed. With a catalog only its columns can be added, and its locked columns stay
even where a view's own copy of the column is not marked as locked.
-/

namespace TableView

/-- Whether a column must stay in its view. -/
def Column.isHeld (c : Column) (catalog : Option Catalog) : Bool :=
  c.locked || catalog.any (·.locks c.key)

/-- Applies a change to a column. A style must be able to draw the column's values. -/
def ColumnChange.apply (change : ColumnChange) (c : Column) : Except EditError Column :=
  match change.style with
  | some style =>
    if style.draws c.kind then
      .ok { c with style := style, heading := change.heading.getD c.heading }
    else .error (.incompatibleStyle style c.kind)
  | none => .ok { c with heading := change.heading.getD c.heading }

namespace View

/-- The column at an index. -/
def columnAt (v : View) (index : Nat) : Except EditError Column :=
  match v.columns[index]? with
  | some c => .ok c
  | none => .error (.columnIndexOutOfRange index v.columns.length)

end View

namespace ViewEdit

/-- Why a catalog rejects a change whatever the view looks like. -/
def refusal? (catalog : Option Catalog) : ViewEdit → Option EditError
  | addColumn column =>
    if catalog.any fun c => (c.column? column.key).isNone then some (.unknownColumn column.key)
    else none
  | _ => none

/-- Applies a change to a view. -/
def apply (catalog : Option Catalog) (v : View) : ViewEdit → Except EditError View
  | addColumn column =>
    if v.shows column.key then .error (.duplicateColumn column.key)
    else .ok { v with columns := v.columns ++ [column] }
  | deleteColumn index => do
    let column ← v.columnAt index
    if column.isHeld catalog then .error (.lockedColumn column.key)
    else .ok { v with columns := v.columns.eraseIdx index }
  | changeColumn index change => do
    let column ← v.columnAt index
    let changed ← change.apply column
    .ok { v with columns := v.columns.set index changed }
  | moveColumn source target => do
    let column ← v.columnAt source
    let _ ← v.columnAt target
    .ok { v with columns := (v.columns.eraseIdx source).insertIdx target column }
  | setFilter filter => .ok { v with filter := filter }
  | setSortKeys keys => .ok { v with sortKeys := keys }
  | setGroupBy groupBy => .ok { v with groupBy := groupBy }
  | setTitle title => .ok { v with title := title }
  | setId id => .ok { v with id := some id }

end ViewEdit

namespace PageViews

/-- The view at an index. -/
def viewAt (p : PageViews) (index : Nat) : Except EditError View :=
  match p.views[index]? with
  | some v => .ok v
  | none => .error (.viewIndexOutOfRange index p.views.length)

/-- Deletes the view at an index. The selection moves with the views behind the deleted one,
and off the end of the list. -/
def deleteView (p : PageViews) (index : Nat) : PageViews :=
  let views := p.views.eraseIdx index
  { p with
    views := views
    selected :=
      if index < p.selected ∨ views.length ≤ p.selected then p.selected - 1 else p.selected }

/-- Applies an edit to the views of a page. -/
def apply (catalog : Option Catalog) (p : PageViews) : Edit → Except EditError PageViews
  | .inView index edit =>
    match edit.refusal? catalog with
    | some error => .error error
    | none => do
      let v ← p.viewAt index
      let changed ← edit.apply catalog v
      .ok { p with views := p.views.set index changed }
  | .selectView index => do
    let _ ← p.viewAt index
    .ok { p with selected := index }
  | .addView view =>
    let added := match catalog with
      | some c => view.withLocked c
      | none => view
    .ok { p with views := p.views ++ [added], selected := p.views.length }
  | .deleteView index => do
    let _ ← p.viewAt index
    if p.views.length = 1 then .error .lastView else .ok (p.deleteView index)

end PageViews

end TableView
