import TableView.Value

/-!
# Columns

A column shows one field of the records of a table: its heading, how its cells are
drawn, what kind of values it declares, the choices of a tag column, and whether
it may be taken out of a view.
-/

namespace TableView

/-- How the cells of a column are drawn. -/
inductive CellStyle where
  | nodeAlias
  | numeric
  | boolean
  | enum
  | bar
  | text
  | duration
  | date
  | longText
deriving DecidableEq

namespace CellStyle

/-- The name of a style in definitions and messages. -/
def name : CellStyle → String
  | nodeAlias => "AliasCell"
  | numeric => "NumericCell"
  | boolean => "BooleanCell"
  | enum => "EnumCell"
  | bar => "BarCell"
  | text => "TextCell"
  | duration => "DurationCell"
  | date => "DateCell"
  | longText => "LongTextCell"

/-- All styles. -/
def all : List CellStyle :=
  [nodeAlias, numeric, boolean, enum, bar, text, duration, date, longText]

/-- The styles that a column of a kind may be switched to. -/
def choicesFor : ValueKind → List CellStyle
  | .number => [numeric, bar, text, longText]
  | .text => [text, longText]
  | .boolean => [boolean]
  | .tag => [enum]
  | .list => [enum]
  | .date => [date]
  | .duration => [duration, text]

/-- Whether a style can draw values of a kind. Beyond the choices, aliases are plain texts
and tags may stay plain text. -/
def draws (style : CellStyle) (kind : ValueKind) : Bool :=
  match style, kind with
  | nodeAlias, .text => true
  | text, .tag => true
  | _, _ => style ∈ choicesFor kind

end CellStyle

/-- A choice of a tag column. -/
structure Choice where
  label : String
  value : String
deriving DecidableEq

/-- One displayable field of a table. -/
structure Column where
  key : String
  heading : String
  style : CellStyle
  kind : ValueKind
  choices : List Choice
  locked : Bool
deriving DecidableEq

namespace Column

/-- A column without choices that is not locked. -/
def plain (key heading : String) (style : CellStyle) (kind : ValueKind) : Column :=
  ⟨key, heading, style, kind, [], false⟩

/-- The label of a tag: that of the first choice with this value, else the tag itself. -/
def labelOf (c : Column) (tag : String) : String :=
  match c.choices.find? (·.value == tag) with
  | some choice => choice.label
  | none => tag

/-- The first column with a key. -/
def find? (columns : List Column) (key : String) : Option Column :=
  columns.find? (·.key == key)

/-- The text of a value in a cell of the column: tags are shown by their labels. -/
def cellText (c : Column) : Value → String
  | .tag s => c.labelOf s
  | .list items => ", ".intercalate (items.map c.labelOf)
  | v => v.display

end Column

end TableView
