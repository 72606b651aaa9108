import TableView.Record
import TableView.Schema

/-!
# Grouping records

Records are grouped by the value of one field. Groups stand in the order in which
their values are first seen and members keep their order, so that grouping sorted
records only brings members together. All blank values form one group.

Each group gets a summary: for every column the sum of the members' numbers, the
value that the group is for, or nothing, as `Aggregation.of` decides.
-/

namespace TableView

/-- What a value is grouped by. Equal keys are equal values, blank ones all alike and
numbers by the word that stands for them in a lookup. -/
inductive GroupKey where
  | blank
  | text (s : String)
  | number (word : Nat)
  | boolean (b : Bool)
  | date (t : Instant)
  | duration (seconds : Int64)
  | tag (s : String)
  | list (items : List String)
deriving DecidableEq

/-- The group key of a value. -/
def Value.groupKey (v : Value) : GroupKey :=
  if v.isBlank then .blank
  else match v with
    | empty => .blank
    | text s => .text s
    | number x => .number x.keyWord
    | boolean b => .boolean b
    | date t => .date t
    | duration seconds => .duration seconds
    | tag s => .tag s
    | list items => .list items

/-- Records with the same group key, and the value that the first of them has. -/
structure Group where
  value : Value
  members : List Record
deriving DecidableEq

namespace Group

/-- The value that a group is for: that of its first member, and empty for a blank one. -/
def valueOf (v : Value) : Value := if v.isBlank then .empty else v

/-- The first record of every group, in order. -/
def representatives (columnKey : String) : List Record → List Record
  | [] => []
  | r :: rest =>
    r :: (representatives columnKey rest).filter fun other =>
      (other.value columnKey).groupKey ≠ (r.value columnKey).groupKey

/-- The group of a record among others: all those with its group key, in their order. -/
def around (columnKey : String) (records : List Record) (r : Record) : Group :=
  ⟨valueOf (r.value columnKey),
    records.filter fun other => (other.value columnKey).groupKey = (r.value columnKey).groupKey⟩

/-- The groups of records by a field, in the order in which their keys are first seen. -/
def partition (columnKey : String) (records : List Record) : List Group :=
  (representatives columnKey records).map (around columnKey records)

end Group

/-- What a column shows in the summary of a group. -/
inductive Aggregation where
  | sum
  | groupValue
  | nothing
deriving DecidableEq

/-- What a column shows when rows are grouped by a field. -/
def Aggregation.of (c : Column) (groupedBy : String) : Aggregation :=
  if c.key = groupedBy then groupValue else if c.kind.isSummed then sum else nothing

/-- A running sum and whether anything was added to it. -/
structure RunningSum where
  total : Binary64
  isEmpty : Bool

namespace RunningSum

/-- The sum of nothing. -/
def start : RunningSum := ⟨.zero false, true⟩

/-- Adds the magnitude of a value. Values without one, and NaN, are skipped. -/
def add (s : RunningSum) (v : Value) : RunningSum :=
  match v.magnitude? with
  | some x => if x.isNaN then s else ⟨s.total + x, false⟩
  | none => s

/-- The sum as a value of a column: whole seconds for durations, empty if nothing was added. -/
def result (s : RunningSum) (kind : ValueKind) : Value :=
  if s.isEmpty then .empty
  else match kind with
    | .duration => .duration s.total.toInt64
    | _ => .number s.total

/-- The sum of some values, added from left to right. -/
def ofValues (values : List Value) : RunningSum := values.foldl add start

end RunningSum

/-- Where the summary of a group stands. -/
inductive SummaryPlace where
  | top
  | bottom
deriving DecidableEq

/-- How rows are laid out: the label of the blank group and the place of summaries. -/
structure Layout where
  blankLabel : String
  summaryPlace : SummaryPlace
deriving DecidableEq

/-- The layout when nothing else is asked for. -/
def Layout.standard : Layout := ⟨"(blank)", .top⟩

instance : Inhabited Layout := ⟨.standard⟩

/-- The summary of a group. -/
structure Summary where
  columnKey : String
  key : Value
  label : String
  memberCount : Nat
  values : List (String × Value)
deriving DecidableEq

namespace Summary

/-- The value of a column in a summary, empty if the column has none. -/
def value (s : Summary) (key : String) : Value := (s.values.lookup key).getD .empty

end Summary

namespace Group

/-- What a column shows for a group. -/
def columnValue (g : Group) (groupedBy : String) (c : Column) : Value :=
  match Aggregation.of c groupedBy with
  | .groupValue => g.value
  | .nothing => .empty
  | .sum => (RunningSum.ofValues (g.members.map (·.value c.key))).result c.kind

/-- The label of a group: the blank label, the label of a tag, or the value as shown. -/
def label (g : Group) (column : Option Column) (layout : Layout) : String :=
  if g.value.isEmpty then layout.blankLabel
  else match g.value, column with
    | .tag s, some c => c.labelOf s
    | v, _ => v.display

/-- The values of all columns for a group. Of columns with one key the last decides. -/
def columnValues (g : Group) (groupedBy : String) (columns : List Column) :
    List (String × Value) :=
  columns.foldl (fun values c => Entries.put c.key (g.columnValue groupedBy c) values) []

/-- The summary of a group. -/
def summary (g : Group) (groupedBy : String) (columns : List Column) (layout : Layout) :
    Summary where
  columnKey := groupedBy
  key := g.value
  label := g.label (Column.find? columns groupedBy) layout
  memberCount := g.members.length
  values := g.columnValues groupedBy columns

end Group

/-- A row of a rendered table. -/
inductive Row where
  | summary (s : Summary)
  | record (r : Record)
deriving DecidableEq

namespace Row

/-- The record of a row that has one. -/
def record? : Row → Option Record
  | record r => some r
  | summary _ => none

/-- The summary of a row that is one. -/
def summary? : Row → Option Summary
  | record _ => none
  | summary s => some s

/-- Whether the row is a summary. -/
def isSummary (row : Row) : Bool := row.summary?.isSome

/-- The value of a row under a key. -/
def value (row : Row) (key : String) : Value :=
  match row with
  | record r => r.value key
  | summary s => s.value key

/-- The text of a row in a cell of a column: a summary shows its label in the column that
it is grouped by. -/
def cellText (row : Row) (c : Column) : String :=
  match row with
  | summary s => if s.columnKey = c.key then s.label else c.cellText (s.value c.key)
  | record r => c.cellText (r.value c.key)

end Row

namespace Group

/-- The rows of a group: its members, and its summary before or after them. -/
def rows (g : Group) (groupedBy : String) (columns : List Column) (layout : Layout) : List Row :=
  let summary := Row.summary (g.summary groupedBy columns layout)
  match layout.summaryPlace with
  | .top => summary :: g.members.map .record
  | .bottom => g.members.map .record ++ [summary]

/-- The rows of records, group by group if they are grouped by a field. -/
def arrange (groupBy : Option String) (columns : List Column) (records : List Record)
    (layout : Layout) : List Row :=
  match groupBy with
  | none => records.map .record
  | some key => (partition key records).flatMap fun g => g.rows key columns layout

/-- The issue of grouping by a field that a schema does not know. -/
def issue? (groupBy : Option String) (s : Schema) : Option Issue :=
  match groupBy with
  | none => none
  | some key =>
    match s.resolve .grouping key with
    | .ok _ => none
    | .error issue => some issue

end Group

end TableView
