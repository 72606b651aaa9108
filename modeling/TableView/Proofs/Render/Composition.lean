import TableView.Render

/-!
# Rendering is filtering, sorting and grouping

What a view shows is what its three parts show one after the other, once each part
has lost what does not fit the schema: a clause that does not fit is the group of any
without members, a key that may not be sorted by is gone, and so is a grouping that
the schema does not know. These parts are ordinary filters, keys and fields, and no
check is left in them.
-/

namespace TableView

/-- Whether a schema lets a clause filter: its column is known and may be filtered, and the
condition belongs to the kind of that column. -/
def Clause.fits (s : Schema) (c : Clause) : Bool :=
  s.filterable.all (·.contains c.columnKey) &&
    (s.column? c.columnKey).any fun column => c.condition.appliesTo column.kind

/-- Whether a schema lets a key sort: its column is known and may be sorted. -/
def SortKey.fits (s : Schema) (k : SortKey) : Bool :=
  (s.column? k.columnKey).isSome && s.sortable.all (·.contains k.columnKey)

namespace Filter

mutual

/-- A filter in which nothing is kept where a clause does not fit. -/
def degraded (s : Schema) : Filter → Filter
  | clause c => if c.fits s then clause c else group .any []
  | group combinator children => group combinator (degradedAll s children)

/-- A list of filters, each degraded in its place. -/
def degradedAll (s : Schema) : List Filter → List Filter
  | [] => []
  | f :: rest => degraded s f :: degradedAll s rest

end

@[simp] theorem degradedAll_eq (s : Schema) (fs : List Filter) :
    degradedAll s fs = fs.map (degraded s) := by
  induction fs with
  | nil => rfl
  | cons f rest ih => rw [degradedAll, ih, List.map_cons]

@[simp] theorem degraded_group (s : Schema) (combinator : Combinator) (fs : List Filter) :
    degraded s (group combinator fs) = group combinator (fs.map (degraded s)) := by
  rw [degraded, degradedAll_eq]

end Filter

variable (s : Schema)

/-- A column is resolved for a section if it is known and the section may use it. -/
theorem Schema.resolve_eq_ok_iff {place : Section} {key : String} {column : Column} :
    s.resolve place key = .ok column ↔
      s.column? key = some column ∧ s.permits place key = true := by
  rw [resolve]
  cases s.column? key with
  | none => simp
  | some known => by_cases permitted : s.permits place key = true <;> simp [permitted]

/-- A clause is accepted if its column is resolved and its condition applies to that column. -/
theorem Clause.check_eq_ok_iff_resolve (c : Clause) : c.check s = .ok () ↔
    ∃ column, s.resolve .filter c.columnKey = .ok column ∧
      c.condition.appliesTo column.kind = true := by
  rw [check]
  cases s.resolve .filter c.columnKey with
  | error issue => simp
  | ok column => by_cases applies : c.condition.appliesTo column.kind <;> simp [applies]

theorem Clause.check_eq_ok_iff (c : Clause) : c.check s = .ok () ↔ c.fits s := by
  rw [check_eq_ok_iff_resolve, fits, Bool.and_eq_true, Option.any_eq_true]
  constructor
  · rintro ⟨column, found, applies⟩
    obtain ⟨known, permitted⟩ := s.resolve_eq_ok_iff.1 found
    exact ⟨permitted, column, known, applies⟩
  · rintro ⟨permitted, column, known, applies⟩
    exact ⟨column, s.resolve_eq_ok_iff.2 ⟨known, permitted⟩, applies⟩

theorem SortKey.fits_iff (k : SortKey) :
    k.fits s ↔ ∃ column, s.resolve .sort k.columnKey = .ok column := by
  rw [fits, Bool.and_eq_true, Option.isSome_iff_exists]
  constructor
  · rintro ⟨⟨column, known⟩, permitted⟩
    exact ⟨column, s.resolve_eq_ok_iff.2 ⟨known, permitted⟩⟩
  · rintro ⟨column, found⟩
    obtain ⟨known, permitted⟩ := s.resolve_eq_ok_iff.1 found
    exact ⟨⟨column, known⟩, permitted⟩

/-- A checked clause keeps what the clause or the filter in its place keeps. -/
theorem Filter.checked_clause_keeps (r : Record) (c : Clause) :
    ((clause c).checked s).1.keeps r = ((clause c).degraded s).keeps r := by
  have accepted := c.check_eq_ok_iff s
  rw [checked, degraded]
  cases checked : c.check s with
  | ok _ =>
      rw [if_pos (accepted.1 checked)]
      rfl
  | error issue =>
      have misfit : ¬ c.fits s := by
        intro fits
        rw [accepted.2 fits] at checked
        cases checked
      rw [if_neg misfit]
      rfl

/-- Checking a filter and degrading it come to the same. -/
theorem Filter.checked_keeps (r : Record) (f : Filter) :
    (f.checked s).1.keeps r = (f.degraded s).keeps r := by
  induction f with
  | clause c => exact checked_clause_keeps s r c
  | group combinator children ih =>
      have same : ∀ f ∈ children,
          (f.checked s).1.keeps r = true ↔ (f.degraded s).keeps r = true := by
        intro f member
        rw [ih f member]
      rw [checked_group, degraded_group]
      cases combinator with
      | all =>
          rw [CheckedFilter.keeps_group_all, keeps_group_all, List.all_map, List.all_map,
            Bool.eq_iff_iff, List.all_eq_true, List.all_eq_true]
          exact forall₂_congr same
      | any =>
          rw [CheckedFilter.keeps_group_any, keeps_group_any, List.any_map, List.any_map,
            Bool.eq_iff_iff, List.any_eq_true, List.any_eq_true]
          exact exists_congr fun f => and_congr_right (same f)

theorem SortKey.isNone_issue? (k : SortKey) : (k.issue? s).isNone = k.fits s := by
  rw [Bool.eq_iff_iff, k.fits_iff s, issue?]
  cases s.resolve .sort k.columnKey <;> simp

theorem SortKey.allowed_eq_filter (keys : List SortKey) :
    (allowed s keys).1 = keys.filter (·.fits s) := by
  rw [allowed_eq]
  exact List.filter_congr fun k _ => k.isNone_issue? s

namespace Renderer

/-- Rows are grouped by the field of the view if the schema knows its column. -/
theorem grouping_eq_filter (r : Renderer) (v : View) :
    r.grouping v = v.groupBy.filter fun key => ((r.schema v).column? key).isSome := by
  rw [grouping, Group.issue?.eq_def]
  cases v.groupBy with
  | none => rfl
  | some key =>
      cases known : (r.schema v).column? key <;>
        simp [Schema.resolve, Schema.permits, known, Option.filter_some]

/-- The rows of a view are the groups of the sorted records that the degraded filter keeps. -/
theorem rows_eq_composition (r : Renderer) (v : View) (records : List Record) :
    let s := r.schema v
    (r.render v records).rows =
      Group.arrange (v.groupBy.filter fun key => (s.column? key).isSome) v.columns
        (SortKey.sort (v.sortKeys.filter (·.fits s))
          (records.filter ((v.filter.degraded s).keeps ·)))
        r.layout := by
  intro s
  have kept : r.kept v records = records.filter ((v.filter.degraded s).keeps ·) := by
    refine List.filter_congr ?_
    intro record _
    exact Filter.checked_keeps s record v.filter
  rw [render_rows, rows, kept, SortKey.allowed_eq_filter, grouping_eq_filter]

end Renderer

end TableView
