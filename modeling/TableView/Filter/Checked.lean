import TableView.Filter
import TableView.Schema

/-!
# Checked filters

A filter is checked against a schema before it is used. A clause that does not fit
is replaced by `never`, which keeps no record, and its issue is collected. The
checked filter is a type of its own: no clause that does not fit can get into it.
-/

namespace TableView

/-- Whether a clause fits a schema: its column may be filtered, and by its condition. -/
def Clause.check (c : Clause) (s : Schema) : Except Issue Unit :=
  match s.resolve .filter c.columnKey with
  | .error issue => .error issue
  | .ok column =>
    if c.condition.appliesTo column.kind then .ok ()
    else .error (.incompatibleCondition c.columnKey c.condition.name column.kind)

/-- The issue of a clause that does not fit. -/
def Clause.issue? (c : Clause) (s : Schema) : Option Issue :=
  match c.check s with
  | .ok () => none
  | .error issue => some issue

/-- The issues of a filter's clauses from left to right. -/
def Filter.issues (f : Filter) (s : Schema) : List Issue :=
  f.clauses.filterMap (·.issue? s)

/-- A checked filter: its clauses fit the schema, and `never` stands for those that did not. -/
inductive CheckedFilter where
  | clause (c : Clause)
  | never
  | group (combinator : Combinator) (children : List CheckedFilter)

namespace CheckedFilter

mutual

/-- Whether a checked filter keeps a record. -/
def keeps (r : Record) : CheckedFilter → Bool
  | clause c => c.keeps r
  | never => false
  | group .all children => allKeep r children
  | group .any children => someKeeps r children

/-- Whether every filter of a list keeps a record. -/
def allKeep (r : Record) : List CheckedFilter → Bool
  | [] => true
  | f :: rest => keeps r f && allKeep r rest

/-- Whether some filter of a list keeps a record. -/
def someKeeps (r : Record) : List CheckedFilter → Bool
  | [] => false
  | f :: rest => keeps r f || someKeeps r rest

end

/-- The records that a checked filter keeps, in their order. -/
def select (f : CheckedFilter) (records : List Record) : List Record :=
  records.filter fun r => f.keeps r

@[simp] theorem allKeep_eq (r : Record) (fs : List CheckedFilter) :
    allKeep r fs = fs.all (keeps r) := by
  induction fs with
  | nil => rfl
  | cons f rest ih => simp [allKeep, ih]

@[simp] theorem someKeeps_eq (r : Record) (fs : List CheckedFilter) :
    someKeeps r fs = fs.any (keeps r) := by
  induction fs with
  | nil => rfl
  | cons f rest ih => simp [someKeeps, ih]

@[simp] theorem keeps_clause (r : Record) (c : Clause) : keeps r (clause c) = c.keeps r := rfl

@[simp] theorem keeps_never (r : Record) : keeps r never = false := rfl

@[simp] theorem keeps_group_all (r : Record) (fs : List CheckedFilter) :
    keeps r (group .all fs) = fs.all (keeps r) := by
  simp [keeps]

@[simp] theorem keeps_group_any (r : Record) (fs : List CheckedFilter) :
    keeps r (group .any fs) = fs.any (keeps r) := by
  simp [keeps]

end CheckedFilter

namespace Filter

mutual

/-- Checks a filter against a schema, with the issues in the order of its clauses. -/
def checked (s : Schema) : Filter → CheckedFilter × List Issue
  | clause c =>
    match c.check s with
    | .ok () => (.clause c, [])
    | .error issue => (.never, [issue])
  | group combinator children =>
    let (members, issues) := checkedAll s children
    (.group combinator members, issues)

/-- Checks a list of filters. -/
def checkedAll (s : Schema) : List Filter → List CheckedFilter × List Issue
  | [] => ([], [])
  | f :: rest =>
    let (member, issues) := checked s f
    let (members, more) := checkedAll s rest
    (member :: members, issues ++ more)

end

/-- Checking a list keeps the places of its filters and the order of their issues. -/
theorem checkedAll_eq (s : Schema) (fs : List Filter) :
    checkedAll s fs = (fs.map (checked s · |>.1), fs.flatMap (checked s · |>.2)) := by
  induction fs with
  | nil => rfl
  | cons f rest ih => simp [checkedAll, ih]

@[simp] theorem checked_group (s : Schema) (combinator : Combinator) (fs : List Filter) :
    checked s (group combinator fs) =
      (.group combinator (fs.map (checked s · |>.1)), fs.flatMap (checked s · |>.2)) := by
  simp [checked, checkedAll_eq]

end Filter

end TableView
