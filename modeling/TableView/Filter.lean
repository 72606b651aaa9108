import TableView.Condition.Matching
import TableView.Record

/-!
# Filters

A filter is a tree: clauses ask a condition of one field, groups combine filters.
The group of all without members keeps every record, the group of any without
members keeps none.
-/

namespace TableView

/-- A condition on one field. -/
structure Clause where
  columnKey : String
  condition : Condition
deriving DecidableEq

/-- Whether a record meets a clause. A field that was never set counts as empty. -/
def Clause.keeps (c : Clause) (r : Record) : Bool := c.condition.accepts (r.value c.columnKey)

/-- How the members of a group are combined. -/
inductive Combinator where
  | all
  | any
deriving DecidableEq

/-- A tree of clauses. -/
inductive Filter where
  | clause (c : Clause)
  | group (combinator : Combinator) (children : List Filter)

namespace Filter

/-- The filter that keeps every record. -/
def everything : Filter := group .all []

/-- The filter that keeps no record. -/
def nothing : Filter := group .any []

instance : Inhabited Filter := ⟨everything⟩

/-- Whether the filter is a group without members. -/
def isEmpty : Filter → Bool
  | group _ [] => true
  | _ => false

mutual

/-- Whether a filter keeps a record. -/
def keeps (r : Record) : Filter → Bool
  | clause c => c.keeps r
  | group .all children => allKeep r children
  | group .any children => someKeeps r children

/-- Whether every filter of a list keeps a record. -/
def allKeep (r : Record) : List Filter → Bool
  | [] => true
  | f :: rest => keeps r f && allKeep r rest

/-- Whether some filter of a list keeps a record. -/
def someKeeps (r : Record) : List Filter → Bool
  | [] => false
  | f :: rest => keeps r f || someKeeps r rest

end

mutual

/-- The clauses of a filter from left to right. -/
def clauses : Filter → List Clause
  | clause c => [c]
  | group _ children => clausesOf children

/-- The clauses of a list of filters from left to right. -/
def clausesOf : List Filter → List Clause
  | [] => []
  | f :: rest => clauses f ++ clausesOf rest

end

/-- Induction over a filter. What is shown of a group may assume it of all members. -/
@[elab_as_elim, induction_eliminator]
theorem induction {motive : Filter → Prop} (clause : ∀ c, motive (clause c))
    (group : ∀ combinator children, (∀ f ∈ children, motive f) →
      motive (group combinator children)) (f : Filter) : motive f :=
  @Filter.rec motive (fun fs => ∀ f ∈ fs, motive f) clause group
    (fun _ member => absurd member List.not_mem_nil)
    (fun _ _ here there => List.forall_mem_cons.2 ⟨here, there⟩) f

@[simp] theorem allKeep_eq (r : Record) (fs : List Filter) : allKeep r fs = fs.all (keeps r) := by
  induction fs with
  | nil => rfl
  | cons f rest ih => simp [allKeep, ih]

@[simp] theorem someKeeps_eq (r : Record) (fs : List Filter) :
    someKeeps r fs = fs.any (keeps r) := by
  induction fs with
  | nil => rfl
  | cons f rest ih => simp [someKeeps, ih]

@[simp] theorem clausesOf_eq (fs : List Filter) : clausesOf fs = fs.flatMap clauses := by
  induction fs with
  | nil => rfl
  | cons f rest ih => simp [clausesOf, ih]

theorem mem_clauses_group {combinator : Combinator} {f : Filter} {fs : List Filter} {c : Clause}
    (mem : f ∈ fs) (known : c ∈ f.clauses) : c ∈ (group combinator fs).clauses := by
  rw [clauses, clausesOf_eq]
  exact List.mem_flatMap.2 ⟨f, mem, known⟩

@[simp] theorem keeps_clause (r : Record) (c : Clause) : keeps r (clause c) = c.keeps r := rfl

@[simp] theorem keeps_group_all (r : Record) (fs : List Filter) :
    keeps r (group .all fs) = fs.all (keeps r) := by
  simp [keeps]

@[simp] theorem keeps_group_any (r : Record) (fs : List Filter) :
    keeps r (group .any fs) = fs.any (keeps r) := by
  simp [keeps]

end Filter

end TableView
