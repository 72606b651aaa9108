import TableView.View

/-!
# Edits

What a user can do to the views of a page. Most edits change one view
(`ViewEdit`); the others select, add and delete views.
-/

namespace TableView

/-- What to change about a column. What is absent stays as it is. -/
structure ColumnChange where
  heading : Option String
  style : Option CellStyle
deriving DecidableEq

/-- A change of one view. -/
inductive ViewEdit where
  /-- Shows one more column, the last. -/
  | addColumn (column : Column)
  /-- Takes a column out of the view. -/
  | deleteColumn (index : Nat)
  /-- Changes the heading or the style of a column. -/
  | changeColumn (index : Nat) (change : ColumnChange)
  /-- Moves a column to another place. -/
  | moveColumn (source target : Nat)
  | setFilter (filter : Filter)
  | setSortKeys (keys : List SortKey)
  | setGroupBy (groupBy : Option String)
  | setTitle (title : String)
  /-- Records the id that a repository gave to the view. -/
  | setId (id : UInt32)

/-- A change of the views of a page. -/
inductive Edit where
  | inView (index : Nat) (edit : ViewEdit)
  | selectView (index : Nat)
  /-- Adds a view and selects it. -/
  | addView (view : View)
  | deleteView (index : Nat)

/-- The name of a change of one view in definitions and messages. -/
def ViewEdit.name : ViewEdit → String
  | addColumn _ => "addColumn"
  | deleteColumn _ => "deleteColumn"
  | changeColumn _ _ => "updateColumn"
  | moveColumn _ _ => "updateColumnsOrder"
  | setFilter _ => "updateFilters"
  | setSortKeys _ => "updateSort"
  | setGroupBy _ => "updateGroupBy"
  | setTitle _ => "updateTitle"
  | setId _ => "markSaved"

/-- The name of an edit in definitions and messages. -/
def Edit.name : Edit → String
  | inView _ edit => edit.name
  | selectView _ => "selectView"
  | addView _ => "addView"
  | deleteView _ => "deleteView"

/-- Why an edit is rejected. -/
inductive EditError where
  | lockedColumn (key : String)
  | columnIndexOutOfRange (index count : Nat)
  | viewIndexOutOfRange (index count : Nat)
  | duplicateColumn (key : String)
  | unknownColumn (key : String)
  | incompatibleStyle (style : CellStyle) (kind : ValueKind)
  | lastView
deriving DecidableEq

/-- The text of a rejection. -/
def EditError.message : EditError → String
  | lockedColumn key => "Column '" ++ key ++ "' is locked and cannot be removed"
  | columnIndexOutOfRange index count =>
    "Column index " ++ toString index ++ " out of range (" ++ toString count ++ " columns)"
  | viewIndexOutOfRange index count =>
    "View index " ++ toString index ++ " out of range (" ++ toString count ++ " views)"
  | duplicateColumn key => "Column '" ++ key ++ "' is already shown"
  | unknownColumn key => "Column '" ++ key ++ "' does not exist on this page"
  | incompatibleStyle style kind =>
    "Cell type " ++ style.name ++ " cannot display " ++ kind.name ++ " values"
  | lastView => "Cannot remove the last view"

end TableView
