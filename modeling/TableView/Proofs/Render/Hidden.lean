import TableView.Proofs.Render.Blocks
import TableView.Proofs.Render.Presentation

/-!
# What a column that is taken out still shows

A view may filter, sort and group by a field that it does not show. Checked against a
catalog, taking a column out of a view leaves the records, the groups, the warning and what
the other columns show as they were. The labels of the groups are the exception: the choices
of a tag column are looked up among the columns of the view, so that groups by a column
that is taken out are labelled with the tags themselves.
-/

namespace TableView

namespace Column

variable {columns : List Column} {index : Nat} {c : Column} {key : String}

/-- Without repeated keys, a column that is taken out is found no more, and the others are
found as before. -/
theorem find?_eraseIdx (distinct : (columns.map (·.key)).Nodup) (here : columns[index]? = some c)
    (key : String) :
    find? (columns.eraseIdx index) key = if key = c.key then none else find? columns key := by
  have split := cons_eraseIdx_perm here
  by_cases own : key = c.key
  · subst own
    have distinctSplit := (split.map (·.key)).nodup_iff.2 distinct
    rw [if_pos rfl, find?_eq_none_iff]
    exact (List.nodup_cons.1 distinctSplit).1
  · rw [if_neg own, find?_perm distinct split.symm, find?_cons, if_neg (Ne.symm own)]

/-- Whether the column shows the tags that some records have in it as they are. -/
def KeepsTags (c : Column) (records : List Record) : Prop :=
  ∀ r ∈ records, ∀ tag, r.value c.key = .tag tag → tag ≠ "" → c.labelOf tag = tag

theorem keepsTags_of_perm {before after : List Record} (perm : before.Perm after) :
    c.KeepsTags before ↔ c.KeepsTags after :=
  forall_congr' fun _ => imp_congr_left perm.mem_iff

end Column

theorem Value.groupKey_eq_tag_iff {v : Value} {tag : String} :
    v.groupKey = .tag tag ↔ v = .tag tag ∧ tag ≠ "" := by
  cases v with
  | tag s =>
      simp only [groupKey, isBlank, isEmpty, String.isEmpty_iff, Value.tag.injEq]
      by_cases blank : s = ""
      · simp +contextual [blank, eq_comm]
      · rw [if_neg blank, GroupKey.tag.injEq]
        exact ⟨fun same => ⟨same, same ▸ blank⟩, And.left⟩
  | _ => rw [groupKey.eq_def]; split <;> simp

namespace Group

variable {columns : List Column} {key : String} {records : List Record}

/-- A group has the same label with a column and without it exactly if the column shows the
tag of the group as it is. -/
theorem label_eq_without_iff (g : Group) (c : Column) (layout : Layout) :
    g.label (some c) layout = g.label none layout ↔
      ∀ tag, g.value.groupKey = .tag tag → c.labelOf tag = tag := by
  simp only [Value.groupKey_eq_tag_iff, label]
  cases g.value with
  | tag s =>
      simp only [Value.isEmpty, String.isEmpty_iff, Value.display, Value.tag.injEq]
      by_cases blank : s = ""
      · simp +contextual [blank]
      · simp [blank]
  | _ => simp

/-- The labels of arranged records, one for each group. -/
theorem map_label_arrange (groupBy : Option String) (layout : Layout) :
    ((arrange groupBy columns records layout).filterMap (·.summary?)).map (·.label) =
      match groupBy with
      | none => []
      | some key =>
          (partition key records).map fun g => g.label (Column.find? columns key) layout := by
  cases groupBy with
  | none =>
      rw [filterMap_summary?_arrange]
      rfl
  | some key =>
      rw [filterMap_summary?_arrange_some, List.map_map]
      rfl

/-- The labels of the groups by a column are the same without it exactly if the column shows
the tags of the records as they are. -/
theorem map_label_partition_iff (c : Column) (layout : Layout) :
    (partition c.key records).map (·.label (some c) layout) =
        (partition c.key records).map (·.label none layout) ↔
      c.KeepsTags records := by
  rw [List.map_inj_left]
  simp only [label_eq_without_iff]
  rw [forall_mem_partition_iff (P := fun k => ∀ tag, k = .tag tag → c.labelOf tag = tag)]
  simp only [Value.groupKey_eq_tag_iff, and_imp, Column.KeepsTags]

end Group

/-- Whether two summaries are of the same group and have the same value under every key but
one. Their labels may differ. -/
structure Summary.AlikeBeside (hidden : String) (s t : Summary) : Prop where
  columnKey : s.columnKey = t.columnKey
  key : s.key = t.key
  memberCount : s.memberCount = t.memberCount
  values : ∀ key, key ≠ hidden → s.values.lookup key = t.values.lookup key

/-- Whether two rows are the same record, or summaries that are alike beside one key. -/
inductive Row.AlikeBeside (hidden : String) : Row → Row → Prop where
  | record (r : Record) : AlikeBeside hidden (.record r) (.record r)
  | summary {s t : Summary} (alike : s.AlikeBeside hidden t) :
      AlikeBeside hidden (.summary s) (.summary t)

/-- Whether two renderings are alike row by row beside one key, with the same warning. -/
structure Rendered.AlikeBeside (hidden : String) (a b : Rendered) : Prop where
  rows : List.Forall₂ (Row.AlikeBeside hidden) a.rows b.rows
  warning : a.warning = b.warning

/-- The labels of the groups that are shown, in order. -/
def Rendered.labels (r : Rendered) : List String :=
  (r.rows.filterMap (·.summary?)).map (·.label)

/-- Beside the column that is taken out, the summary of a group says what it said. -/
theorem Group.summary_alikeBeside (g : Group) (groupedBy : String) (layout : Layout)
    {columns : List Column} {index : Nat} {c : Column}
    (distinct : (columns.map (·.key)).Nodup) (here : columns[index]? = some c) :
    (g.summary groupedBy columns layout).AlikeBeside c.key
      (g.summary groupedBy (columns.eraseIdx index) layout) where
  columnKey := rfl
  key := rfl
  memberCount := rfl
  values key other := by
    have distinctLeft : ((columns.eraseIdx index).map (·.key)).Nodup :=
      ((List.eraseIdx_sublist columns index).map _).nodup distinct
    calc (g.columnValues groupedBy columns).lookup key
        = (Column.find? columns key).map (g.columnValue groupedBy) :=
          g.lookup_columnValues groupedBy key distinct
      _ = (Column.find? (columns.eraseIdx index) key).map (g.columnValue groupedBy) := by
          rw [Column.find?_eraseIdx distinct here, if_neg other]
      _ = (g.columnValues groupedBy (columns.eraseIdx index)).lookup key :=
          (g.lookup_columnValues groupedBy key distinctLeft).symm

/-- The view without the column at an index. -/
def View.without (v : View) (index : Nat) : View :=
  { v with columns := v.columns.eraseIdx index }

namespace Renderer

variable {r : Renderer} {catalog : Catalog} {v : View} {index : Nat} {c : Column}

/-- What a catalog knows does not depend on what a view shows. -/
theorem schema_without (checked : r.catalog = some catalog) :
    r.schema (v.without index) = r.schema v := by
  simp only [schema, checked]

theorem kept_without (checked : r.catalog = some catalog) (records : List Record) :
    r.kept (v.without index) records = r.kept v records := by
  rw [kept, kept, schema_without checked]
  rfl

theorem rows_without (checked : r.catalog = some catalog) (records : List Record) :
    r.rows (v.without index) records =
      Group.arrange (r.grouping v) (v.columns.eraseIdx index) (r.sorted v records) r.layout := by
  rw [rows, kept_without checked, grouping, schema_without checked]
  rfl

/-- Checked against a catalog, a view without one of its columns shows the same records in
the same order, the same groups with what the other columns say of them, and the same
warning. -/
theorem render_without (checked : r.catalog = some catalog) (distinct : v.HasDistinctKeys)
    (here : v.columns[index]? = some c) (records : List Record) :
    (r.render v records).AlikeBeside c.key (r.render (v.without index) records) := by
  constructor
  · rw [render_rows, render_rows, rows_without checked]
    exact Group.arrange_forall₂ _ _ _ .record fun g key =>
      .summary (g.summary_alikeBeside key r.layout distinct here)
  · rw [render_warning, render_warning, warning, warning, issues, issues, schema_without checked]
    rfl

/-- The groups keep their labels exactly if they are groups by another column, or if the
column that is taken out shows the tags of the records as they are. -/
theorem labels_without_iff (checked : r.catalog = some catalog) (distinct : v.HasDistinctKeys)
    (here : v.columns[index]? = some c) (records : List Record) :
    (r.render v records).labels = (r.render (v.without index) records).labels ↔
      (r.grouping v = some c.key → c.KeepsTags (r.kept v records)) := by
  have arranged : r.rows v records =
      Group.arrange (r.grouping v) v.columns (r.sorted v records) r.layout := rfl
  have sorted : (r.sorted v records).Perm (r.kept v records) := SortKey.sort_perm _ _
  rw [Rendered.labels, Rendered.labels, render_rows, render_rows, rows_without checked, arranged,
    Group.map_label_arrange, Group.map_label_arrange]
  cases grouped : r.grouping v with
  | none => simp
  | some key =>
      simp only [Column.find?_eraseIdx distinct here, Option.some.injEq]
      by_cases own : key = c.key
      · subst own
        have found : Column.find? v.columns c.key = some c :=
          (Column.find?_eq_some_iff distinct).2 ⟨List.mem_of_getElem? here, rfl⟩
        rw [found, if_pos rfl, Group.map_label_partition_iff, Column.keepsTags_of_perm sorted]
        exact ⟨fun kept _ => kept, fun kept => kept rfl⟩
      · simp [own]

end Renderer

end TableView
