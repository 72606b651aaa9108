import TableView.Column

/-!
# Issues of a view's configuration

A part of a view that does not fit its columns never stops a rendering. It is left
out, and the issues of all parts are reported together in one `Warning`.
-/

namespace TableView

/-- The part of a view that an issue was found in. -/
inductive Section where
  | filter
  | sort
  | grouping
deriving DecidableEq

/-- The name of a section in messages. -/
def Section.label : Section → String
  | filter => "filter"
  | sort => "sort"
  | grouping => "group-by"

/-- Something in a view that does not fit its columns. -/
inductive Issue where
  | unknownColumn (place : Section) (columnKey : String)
  | incompatibleCondition (columnKey condition : String) (kind : ValueKind)
  | notSortable (columnKey : String)
  | notFilterable (columnKey : String)
deriving DecidableEq

/-- The text of an issue. -/
def Issue.message : Issue → String
  | unknownColumn place key => place.label ++ " references unknown column '" ++ key ++ "'"
  | incompatibleCondition key condition kind =>
    condition ++ " condition cannot be applied to " ++ kind.name ++ " column '" ++ key ++ "'"
  | notSortable key => "column '" ++ key ++ "' is not sortable"
  | notFilterable key => "column '" ++ key ++ "' is not filterable"

/-- The issues of one rendering. -/
structure Warning where
  issues : List Issue
deriving DecidableEq

namespace Warning

/-- The issues without repetitions, each at its first place. -/
def distinct : List Issue → List Issue
  | [] => []
  | issue :: rest => issue :: (distinct rest).filter (· != issue)

/-- The warning about some issues; none when there are no issues. -/
def of? (issues : List Issue) : Option Warning :=
  match distinct issues with
  | [] => none
  | found => some ⟨found⟩

/-- The text of a warning. -/
def message (w : Warning) : String :=
  "view configuration has " ++ toString w.issues.length ++ " problem(s): " ++
    "; ".intercalate (w.issues.map Issue.message)

end Warning

end TableView
