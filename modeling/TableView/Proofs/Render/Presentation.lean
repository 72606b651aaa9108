import Mathlib.Data.List.Forall2
import Mathlib.Data.List.InsertIdx
import TableView.Proofs.Edit.Locked
import TableView.Render

/-!
# Presentation does not change what is shown

A rendering reads the key, the kind and the choices of a column and looks columns up by
their keys. Views with the same filter, sort keys and grouping that find the same under
every key are therefore rendered alike, whatever their columns are called, how these are
drawn and in which order they stand. The edits that concern nothing else lead from a view
to such a view.
-/

namespace TableView

namespace Column

variable {columns before after : List Column} {key : String}

/-- A column without what only presents it: its heading, its style and its lock. -/
def bare (c : Column) : Column := { c with heading := "", style := .text, locked := false }

@[simp] theorem bare_key (c : Column) : c.bare.key = c.key := rfl

@[simp] theorem bare_kind (c : Column) : c.bare.kind = c.kind := rfl

@[simp] theorem bare_labelOf (c : Column) : c.bare.labelOf = c.labelOf := rfl

theorem key_of_find? {c : Column} (found : find? columns key = some c) : c.key = key :=
  beq_iff_eq.1 (List.find?_some (p := fun c : Column => c.key == key) found)

theorem find?_cons (c : Column) (rest : List Column) (key : String) :
    find? (c :: rest) key = if c.key = key then some c else find? rest key := by
  by_cases here : c.key = key <;> simp [find?, here]

theorem find?_eq_none_iff : find? columns key = none ↔ key ∉ columns.map (·.key) := by
  simp [find?, List.mem_map]

theorem find?_map_bare (columns : List Column) (key : String) :
    find? (columns.map bare) key = (find? columns key).map bare :=
  List.find?_map

/-- Without repeated keys, the column found under a key is the one that has it. -/
theorem find?_eq_some_iff (distinct : (columns.map (·.key)).Nodup) {c : Column} :
    find? columns key = some c ↔ c ∈ columns ∧ c.key = key := by
  constructor
  · intro found
    exact ⟨List.mem_of_find?_eq_some found, key_of_find? found⟩
  · rintro ⟨member, rfl⟩
    exact find?_key distinct member

/-- Without repeated keys, it does not matter in which order columns are searched. -/
theorem find?_perm (distinct : (before.map (·.key)).Nodup) (perm : before.Perm after)
    (key : String) : find? before key = find? after key := by
  have distinctAfter : (after.map (·.key)).Nodup := (perm.map _).nodup_iff.1 distinct
  ext c
  rw [find?_eq_some_iff distinct, find?_eq_some_iff distinctAfter, perm.mem_iff]

/-- Whether looking up a key finds the same in two lists of columns, presentation aside. -/
def SameData (before after : List Column) : Prop :=
  ∀ key, (find? before key).map bare = (find? after key).map bare

/-- Columns in another order find the same, whatever was changed about their presentation. -/
theorem SameData.of_perm (distinct : (before.map (·.key)).Nodup)
    (perm : (before.map bare).Perm (after.map bare)) : SameData before after := by
  intro key
  have distinctBare : ((before.map bare).map (·.key)).Nodup := by
    rw [List.map_map]
    exact distinct
  rw [← find?_map_bare, ← find?_map_bare, find?_perm distinctBare perm]

end Column

namespace Schema

/-- Whether two schemas say the same: under every key a column of the same kind, if any, and
the same restrictions. -/
structure Alike (s t : Schema) : Prop where
  kinds : ∀ key, (s.column? key).map (·.kind) = (t.column? key).map (·.kind)
  permits : ∀ place key, s.permits place key = t.permits place key

namespace Alike

variable {s t : Schema}

theorem refl (s : Schema) : s.Alike s := ⟨fun _ => rfl, fun _ _ => rfl⟩

/-- A key is resolved to columns of one kind, or rejected with one issue. -/
theorem resolve_cases (alike : s.Alike t) (place : Section) (key : String) :
    (∃ c d : Column, s.resolve place key = .ok c ∧ t.resolve place key = .ok d ∧
        c.kind = d.kind) ∨
      ∃ issue, s.resolve place key = .error issue ∧ t.resolve place key = .error issue := by
  have kinds := alike.kinds key
  simp only [resolve, alike.permits place key]
  cases inS : s.column? key with
  | none =>
      cases inT : t.column? key with
      | none => exact .inr ⟨_, rfl, rfl⟩
      | some d => simp [inS, inT] at kinds
  | some c =>
      cases inT : t.column? key with
      | none => simp [inS, inT] at kinds
      | some d =>
          have kind : c.kind = d.kind := by simpa [inS, inT] using kinds
          by_cases permitted : t.permits place key = true
          · exact .inl ⟨c, d, by simp [permitted], by simp [permitted], kind⟩
          · exact .inr ⟨refusal place key, by simp [permitted], by simp [permitted]⟩

theorem check (alike : s.Alike t) (c : Clause) : c.check s = c.check t := by
  obtain ⟨a, b, inS, inT, kind⟩ | ⟨issue, inS, inT⟩ := alike.resolve_cases .filter c.columnKey
  · simp only [Clause.check, inS, inT, kind]
  · simp only [Clause.check, inS, inT]

theorem checked (alike : s.Alike t) (f : Filter) : f.checked s = f.checked t := by
  induction f with
  | clause c => simp only [Filter.checked, alike.check]
  | group combinator children ih =>
      have members : children.map (Filter.checked s · |>.1) =
          children.map (Filter.checked t · |>.1) :=
        List.map_congr_left fun f member => by rw [ih f member]
      have issues : children.flatMap (Filter.checked s · |>.2) =
          children.flatMap (Filter.checked t · |>.2) :=
        List.flatMap_congr fun f member => by rw [ih f member]
      rw [Filter.checked_group, Filter.checked_group, members, issues]

theorem allowed (alike : s.Alike t) (keys : List SortKey) :
    SortKey.allowed s keys = SortKey.allowed t keys := by
  induction keys with
  | nil => rfl
  | cons k rest ih =>
      obtain ⟨a, b, inS, inT, -⟩ | ⟨issue, inS, inT⟩ := alike.resolve_cases .sort k.columnKey
      · simp only [SortKey.allowed, ih, inS, inT]
      · simp only [SortKey.allowed, ih, inS, inT]

theorem groupIssue? (alike : s.Alike t) (groupBy : Option String) :
    Group.issue? groupBy s = Group.issue? groupBy t := by
  cases groupBy with
  | none => rfl
  | some key =>
      obtain ⟨a, b, inS, inT, -⟩ | ⟨issue, inS, inT⟩ := alike.resolve_cases .grouping key
      · simp only [Group.issue?, inS, inT]
      · simp only [Group.issue?, inS, inT]

end Alike

/-- Columns that find the same say the same as a schema. -/
theorem ofColumns_alike {before after : List Column} (same : Column.SameData before after) :
    (ofColumns before).Alike (ofColumns after) where
  kinds key := by
    have kinds := congrArg (Option.map (·.kind)) (same key)
    rw [Option.map_map, Option.map_map] at kinds
    exact kinds
  permits _ _ := rfl

end Schema

/-- Whether two summaries say the same: of the same group, and under every key. -/
structure Summary.Alike (s t : Summary) : Prop where
  columnKey : s.columnKey = t.columnKey
  key : s.key = t.key
  label : s.label = t.label
  memberCount : s.memberCount = t.memberCount
  values : ∀ key, s.values.lookup key = t.values.lookup key

/-- Whether two rows say the same: the same record, or summaries that say the same. -/
inductive Row.Alike : Row → Row → Prop where
  | record (r : Record) : Alike (.record r) (.record r)
  | summary {s t : Summary} (alike : s.Alike t) : Alike (.summary s) (.summary t)

/-- Whether two renderings say the same: row by row, and in their warnings. -/
structure Rendered.Alike (a b : Rendered) : Prop where
  rows : List.Forall₂ Row.Alike a.rows b.rows
  warning : a.warning = b.warning

theorem Row.Alike.refl (row : Row) : row.Alike row := by
  cases row with
  | record r => exact .record r
  | summary s => exact .summary ⟨rfl, rfl, rfl, rfl, fun _ => rfl⟩

theorem Rendered.Alike.refl (a : Rendered) : a.Alike a :=
  ⟨List.forall₂_same.2 fun row _ => .refl row, rfl⟩

theorem Row.Alike.cellText {a b : Row} (alike : a.Alike b) (c : Column) :
    a.cellText c = b.cellText c := by
  cases alike with
  | record r => rfl
  | summary same =>
      simp only [Row.cellText, Summary.value, same.columnKey, same.label, same.values]

namespace Group

variable {before after columns : List Column}

theorem lookup_columnValues (g : Group) (groupedBy key : String)
    (distinct : (columns.map (·.key)).Nodup) :
    (g.columnValues groupedBy columns).lookup key =
      (Column.find? columns key).map (g.columnValue groupedBy) := by
  -- Values that are put later are those of other keys.
  suffices put : ∀ values : List (String × Value),
      (columns.foldl (fun values c => Entries.put c.key (g.columnValue groupedBy c) values)
        values).lookup key =
        ((Column.find? columns key).map (g.columnValue groupedBy)).or (values.lookup key) by
    rw [columnValues, put]
    exact Option.or_none
  induction columns with
  | nil => intro values; rfl
  | cons c rest ih =>
      obtain ⟨new, distinctRest⟩ := List.nodup_cons.1 distinct
      intro values
      rw [List.foldl_cons, ih distinctRest, Column.find?_cons]
      by_cases here : c.key = key
      · subst here
        rw [Column.find?_eq_none_iff.2 new, Entries.lookup_put_self, if_pos rfl]
        rfl
      · rw [if_neg here, Entries.lookup_put_of_ne (Ne.symm here)]

theorem label_bare (g : Group) (column : Option Column) (layout : Layout) :
    g.label (column.map Column.bare) layout = g.label column layout := by
  cases column with
  | none => rfl
  | some c =>
      simp only [label, Option.map_some]
      cases g.value <;> rfl

theorem summary_alike (g : Group) (groupedBy : String) (layout : Layout)
    (same : Column.SameData before after) (distinctBefore : (before.map (·.key)).Nodup)
    (distinctAfter : (after.map (·.key)).Nodup) :
    (g.summary groupedBy before layout).Alike (g.summary groupedBy after layout) where
  columnKey := rfl
  key := rfl
  label := by
    show g.label (Column.find? before groupedBy) layout =
      g.label (Column.find? after groupedBy) layout
    rw [← label_bare, same groupedBy, label_bare]
  memberCount := rfl
  values key := by
    have values := congrArg (Option.map (g.columnValue groupedBy)) (same key)
    rw [Option.map_map, Option.map_map] at values
    exact (g.lookup_columnValues groupedBy key distinctBefore).trans
      (values.trans (g.lookup_columnValues groupedBy key distinctAfter).symm)

/-- Records arranged over two lists of columns are related row by row if every group has
related summaries. -/
theorem arrange_forall₂ {R : Row → Row → Prop} (groupBy : Option String) (records : List Record)
    (layout : Layout) (record : ∀ r, R (.record r) (.record r))
    (summary : ∀ (g : Group) (key : String),
      R (.summary (g.summary key before layout)) (.summary (g.summary key after layout))) :
    List.Forall₂ R (arrange groupBy before records layout)
      (arrange groupBy after records layout) := by
  have members : ∀ rs : List Record, List.Forall₂ R (rs.map Row.record) (rs.map Row.record) := by
    intro rs
    induction rs with
    | nil => exact .nil
    | cons r rest ih => exact .cons (record r) ih
  cases groupBy with
  | none => exact members records
  | some key =>
      have group : ∀ g : Group, List.Forall₂ R (g.rows key before layout)
          (g.rows key after layout) := by
        intro g
        rw [rows.eq_def, rows.eq_def]
        cases layout.summaryPlace with
        | top => exact .cons (summary g key) (members g.members)
        | bottom => exact List.rel_append (members g.members) (.cons (summary g key) .nil)
      simp only [arrange]
      induction partition key records with
      | nil => exact .nil
      | cons g rest ih => exact List.rel_append (group g) ih

theorem arrange_alike (groupBy : Option String) (records : List Record) (layout : Layout)
    (same : Column.SameData before after) (distinctBefore : (before.map (·.key)).Nodup)
    (distinctAfter : (after.map (·.key)).Nodup) :
    List.Forall₂ Row.Alike (arrange groupBy before records layout)
      (arrange groupBy after records layout) :=
  arrange_forall₂ groupBy records layout .record fun g key =>
    .summary (g.summary_alike key layout same distinctBefore distinctAfter)

end Group

namespace View

/-- No two columns of the view have one key. -/
def HasDistinctKeys (v : View) : Prop := (v.columns.map (·.key)).Nodup

instance (v : View) : Decidable v.HasDistinctKeys := inferInstanceAs (Decidable (List.Nodup _))

/-- Whether two views ask for the same data: they filter, sort and group alike, and look up
the same columns. -/
structure SameData (v w : View) : Prop where
  filter : v.filter = w.filter
  sortKeys : v.sortKeys = w.sortKeys
  groupBy : v.groupBy = w.groupBy
  columns : Column.SameData v.columns w.columns

end View

namespace Renderer

variable {v w : View}

theorem schema_alike (r : Renderer) (same : v.SameData w) : (r.schema v).Alike (r.schema w) := by
  rw [schema.eq_def, schema.eq_def]
  cases r.catalog with
  | none => exact Schema.ofColumns_alike same.columns
  | some c => exact .refl _

/-- Views that ask for the same data are rendered alike, with a catalog and without one. -/
theorem render_alike (r : Renderer) (same : v.SameData w) (distinctV : v.HasDistinctKeys)
    (distinctW : w.HasDistinctKeys) (records : List Record) :
    (r.render v records).Alike (r.render w records) := by
  have schema := r.schema_alike same
  have kept : r.kept v records = r.kept w records := by
    rw [Renderer.kept, Renderer.kept, same.filter, schema.checked]
  have grouping : r.grouping v = r.grouping w := by
    rw [Renderer.grouping, Renderer.grouping, same.groupBy, schema.groupIssue?]
  have issues : r.issues v = r.issues w := by
    rw [Renderer.issues, Renderer.issues, same.filter, same.sortKeys, same.groupBy,
      schema.checked, schema.allowed, schema.groupIssue?]
  constructor
  · rw [render_rows, render_rows, rows, rows, kept, grouping, same.sortKeys, schema.allowed]
    exact Group.arrange_alike _ _ _ same.columns distinctV distinctW
  · rw [render_warning, render_warning, warning, warning, issues]

end Renderer

/-- A list with the item of one place moved to another, if there are both places. -/
def moved (source target : Nat) (l : List α) : List α :=
  match l[source]? with
  | some a => if target < l.length then (l.eraseIdx source).insertIdx target a else l
  | none => l

theorem map_moved (f : α → β) (source target : Nat) (l : List α) :
    (moved source target l).map f = moved source target (l.map f) := by
  cases here : l[source]? with
  | none => simp [moved, here]
  | some a =>
      by_cases inRange : target < l.length
      · simp [moved, here, inRange, List.map_insertIdx, List.eraseIdx_map]
      · simp [moved, here, inRange]

namespace ViewEdit

/-- Whether a change concerns only how a view is presented. -/
def isPresentation : ViewEdit → Bool
  | changeColumn _ _ => true
  | moveColumn _ _ => true
  | setTitle _ => true
  | setId _ => true
  | _ => false

/-- How a change rearranges what stands in the order of the columns. -/
def rearrange (edit : ViewEdit) (l : List α) : List α :=
  match edit with
  | moveColumn source target => moved source target l
  | _ => l

theorem map_rearrange (f : α → β) (edit : ViewEdit) (l : List α) :
    (edit.rearrange l).map f = edit.rearrange (l.map f) := by
  cases edit with
  | moveColumn source target => exact map_moved f source target l
  | _ => rfl

/-- A change rearranges a list without losing or adding anything. -/
theorem rearrange_perm (edit : ViewEdit) (l : List α) : (edit.rearrange l).Perm l := by
  cases edit with
  | moveColumn source target =>
      simp only [rearrange, moved]
      split
      next here =>
        split
        next inRange => exact perm_moved here inRange
        next => exact .refl l
      next => exact .refl l
  | _ => exact .refl l

variable {catalog : Option Catalog} {v next : View} {edit : ViewEdit}

/-- A presentation edit rearranges the columns, presentation aside, and nothing else of what
a rendering reads. -/
theorem apply_presentation (presents : edit.isPresentation = true)
    (accepted : edit.apply catalog v = .ok next) :
    next.filter = v.filter ∧ next.sortKeys = v.sortKeys ∧ next.groupBy = v.groupBy ∧
      next.columns.map Column.bare = edit.rearrange (v.columns.map Column.bare) := by
  cases edit with
  | changeColumn index change =>
      obtain ⟨column, here, changed, applied, rfl⟩ := apply_changeColumn_iff.1 accepted
      obtain ⟨-, rfl⟩ := ColumnChange.apply_eq_ok_iff.1 applied
      exact ⟨rfl, rfl, rfl, map_set_of_eq here rfl⟩
  | moveColumn source target =>
      obtain ⟨column, here, inRange, rfl⟩ := apply_moveColumn_iff.1 accepted
      have columns : (v.columns.eraseIdx source).insertIdx target column =
          moved source target v.columns := by
        simp only [moved, here, if_pos inRange]
      exact ⟨rfl, rfl, rfl, by rw [columns, map_moved]; rfl⟩
  | setTitle title => cases accepted; exact ⟨rfl, rfl, rfl, rfl⟩
  | setId id => cases accepted; exact ⟨rfl, rfl, rfl, rfl⟩
  | _ => cases presents

/-- After a presentation edit a view asks for the same data, under keys that are still
distinct. -/
theorem apply_sameData (presents : edit.isPresentation = true) (distinct : v.HasDistinctKeys)
    (accepted : edit.apply catalog v = .ok next) : v.SameData next ∧ next.HasDistinctKeys := by
  obtain ⟨filter, sortKeys, groupBy, columns⟩ := apply_presentation presents accepted
  have perm : (v.columns.map Column.bare).Perm (next.columns.map Column.bare) := by
    rw [columns]
    exact (edit.rearrange_perm _).symm
  have keys : (v.columns.map (·.key)).Perm (next.columns.map (·.key)) := by
    have bareKeys := perm.map (·.key)
    rw [List.map_map, List.map_map] at bareKeys
    exact bareKeys
  exact ⟨⟨filter.symm, sortKeys.symm, groupBy.symm, .of_perm distinct perm⟩,
    keys.nodup_iff.1 distinct⟩

end ViewEdit

/-- The texts of a row do not depend on how the columns are presented. -/
theorem Row.map_cellText_bare (row : Row) (columns : List Column) :
    (columns.map Column.bare).map row.cellText = columns.map row.cellText := by
  rw [List.map_map]
  rfl

/-- If the columns of two renderings that say the same are rearranged, presentation aside, the
texts of each row are rearranged alike. -/
theorem Rendered.Alike.display {a b : Rendered} (alike : a.Alike b) {before after : List Column}
    {edit : ViewEdit}
    (columns : after.map Column.bare = edit.rearrange (before.map Column.bare)) :
    b.display after = (a.display before).map edit.rearrange := by
  have texts : ∀ {x y : Row}, x.Alike y →
      after.map y.cellText = edit.rearrange (before.map x.cellText) := by
    intro x y same
    have cells : y.cellText = x.cellText := funext fun c => (same.cellText c).symm
    rw [cells, ← x.map_cellText_bare after, columns, edit.map_rearrange, x.map_cellText_bare]
  have rowwise := alike.rows
  rw [Rendered.display, Rendered.display, List.map_map]
  generalize a.rows = shownBefore, b.rows = shownAfter at rowwise ⊢
  induction rowwise with
  | nil => rfl
  | cons same _ ih => rw [List.map_cons, List.map_cons, ih, texts same]; rfl

/-- Whether two views show the same data in every rendering, with and without a catalog, where
the cells of each row are those of the other view rearranged. -/
def View.ShowsSame (rearrange : List String → List String) (v w : View) : Prop :=
  ∀ (r : Renderer) (records : List Record), (r.render v records).Alike (r.render w records) ∧
    (r.render w records).display w.columns = ((r.render v records).display v.columns).map rearrange

theorem View.ShowsSame.refl (v : View) : v.ShowsSame (fun cells => cells) v :=
  fun _ _ => ⟨.refl _, (List.map_id _).symm⟩

/-- After a presentation edit a view shows the same data, with the cells of each row rearranged
like the columns. -/
theorem ViewEdit.apply_showsSame {catalog : Option Catalog} {v next : View} {edit : ViewEdit}
    (presents : edit.isPresentation = true) (distinct : v.HasDistinctKeys)
    (accepted : edit.apply catalog v = .ok next) : v.ShowsSame edit.rearrange next := by
  obtain ⟨same, distinctNext⟩ := apply_sameData presents distinct accepted
  intro r records
  have alike := r.render_alike same distinct distinctNext records
  exact ⟨alike, alike.display (apply_presentation presents accepted).2.2.2⟩

end TableView
