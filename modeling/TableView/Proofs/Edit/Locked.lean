import Mathlib.Data.List.Nodup
import Mathlib.Data.List.Perm.Basic
import TableView.Proofs.Edit.Accepted

/-!
# Locked columns survive edits

A view keeps the locked columns of a catalog if it shows a column under the key of
each. Views enter a page through `View.withLocked`, which adds what is missing, and
no accepted edit takes a locked column out: the guard of `deleteColumn` looks up the
key in the catalog, which finds the locked column itself because keys do not repeat.
-/

namespace TableView

/-- Without repeated keys, looking up the key of a column finds that column. -/
theorem Column.find?_key {columns : List Column} (distinct : (columns.map (·.key)).Nodup)
    {column : Column} (member : column ∈ columns) : find? columns column.key = some column := by
  induction columns with
  | nil => cases member
  | cons first rest ih =>
      rw [List.map_cons, List.nodup_cons] at distinct
      rw [find?, List.find?_cons]
      rcases List.mem_cons.1 member with rfl | later
      · simp
      · have other : first.key ≠ column.key := by
          intro same
          exact distinct.1 (same ▸ List.mem_map_of_mem later)
        simp only [beq_eq_false_iff_ne.2 other]
        exact ih distinct.2 later

namespace Catalog

/-- No two columns of the catalog have one key. -/
def HasDistinctKeys (c : Catalog) : Prop := (c.columns.map (·.key)).Nodup

instance (c : Catalog) : Decidable c.HasDistinctKeys := inferInstanceAs (Decidable (List.Nodup _))

theorem mem_lockedColumns {c : Catalog} {column : Column} :
    column ∈ c.lockedColumns ↔ column ∈ c.columns ∧ column.locked = true :=
  List.mem_filter

theorem HasDistinctKeys.column?_eq {c : Catalog} (distinct : c.HasDistinctKeys) {column : Column}
    (member : column ∈ c.columns) : c.column? column.key = some column :=
  Column.find?_key distinct member

/-- The key of a locked column is locked. -/
theorem HasDistinctKeys.locks {c : Catalog} (distinct : c.HasDistinctKeys) {column : Column}
    (member : column ∈ c.lockedColumns) : c.locks column.key = true := by
  obtain ⟨inCatalog, locked⟩ := mem_lockedColumns.1 member
  simp [Catalog.locks, distinct.column?_eq inCatalog, locked]

end Catalog

namespace View

theorem shows_iff {v : View} {key : String} :
    v.shows key = true ↔ ∃ shown ∈ v.columns, shown.key = key := by
  simp [shows]

/-- Whether a view shows a column under the key of every locked column of a catalog. -/
def KeepsLocked (v : View) (c : Catalog) : Prop :=
  ∀ locked ∈ c.lockedColumns, ∃ shown ∈ v.columns, shown.key = locked.key

variable {v next : View} {c : Catalog}

theorem withLocked_keepsLocked (v : View) (c : Catalog) : (v.withLocked c).KeepsLocked c := by
  intro locked member
  by_cases shown : v.shows locked.key = true
  · obtain ⟨column, found, same⟩ := shows_iff.1 shown
    exact ⟨column, List.mem_append_right _ found, same⟩
  · have missing : locked ∈ v.missingLocked c := by
      simp [missingLocked, member, shown]
    exact ⟨locked, List.mem_append_left _ missing, rfl⟩

/-- What a view lacks are the locked columns of the catalog under whose keys it shows nothing, in
the order of the catalog. -/
theorem missingLocked_eq_filter (v : View) (c : Catalog) : v.missingLocked c =
    c.columns.filter fun column => column.locked ∧ ∀ shown ∈ v.columns, shown.key ≠ column.key := by
  rw [missingLocked, Catalog.lockedColumns, List.filter_filter]
  refine List.filter_congr ?_
  intro column _
  rw [Bool.eq_iff_iff]
  simp [shows, and_comm]

theorem missingLocked_eq_nil_iff : v.missingLocked c = [] ↔ v.KeepsLocked c := by
  simp [missingLocked, KeepsLocked, shows]

theorem withLocked_of_keepsLocked (kept : v.KeepsLocked c) : v.withLocked c = v := by
  rw [withLocked, missingLocked_eq_nil_iff.2 kept, List.nil_append]

/-- Only the keys of the columns matter. -/
theorem KeepsLocked.of_keys_subset (kept : v.KeepsLocked c)
    (subset : v.columns.map (·.key) ⊆ next.columns.map (·.key)) : next.KeepsLocked c := by
  intro locked member
  obtain ⟨shown, found, same⟩ := kept locked member
  obtain ⟨column, foundNext, sameNext⟩ := List.mem_map.1 (subset (List.mem_map_of_mem found))
  exact ⟨column, foundNext, sameNext.trans same⟩

/-- Taking out a column that is not held takes out no locked column. -/
theorem KeepsLocked.eraseIdx (kept : v.KeepsLocked c) (distinct : c.HasDistinctKeys) {index : Nat}
    {column : Column} (here : v.columns[index]? = some column)
    (free : column.isHeld (some c) = false) :
    ({ v with columns := v.columns.eraseIdx index } : View).KeepsLocked c := by
  intro locked member
  obtain ⟨shown, found, same⟩ := kept locked member
  have notTaken : shown ≠ column := by
    rintro rfl
    simp [Column.isHeld, same, distinct.locks member] at free
  obtain ⟨i, elsewhere⟩ := List.mem_iff_getElem?.1 found
  refine ⟨shown, List.mem_eraseIdx_iff_getElem?.2 ⟨i, ?_, elsewhere⟩, same⟩
  rintro rfl
  exact notTaken (Option.some.inj (elsewhere.symm.trans here))

end View

/-- A list holds the item of one place and the items of the others. -/
theorem cons_eraseIdx_perm {l : List α} {index : Nat} {a : α} (here : l[index]? = some a) :
    (a :: l.eraseIdx index).Perm l := by
  obtain ⟨inRange, rfl⟩ := List.getElem?_eq_some_iff.1 here
  exact List.getElem_cons_eraseIdx_perm inRange

theorem perm_moved {l : List α} {source target : Nat} {a : α} (here : l[source]? = some a)
    (inRange : target < l.length) : ((l.eraseIdx source).insertIdx target a).Perm l := by
  have shorter : target ≤ (l.eraseIdx source).length := by
    rw [List.length_eraseIdx_of_lt (exists_getElem?_iff.1 ⟨a, here⟩)]
    omega
  exact (List.perm_insertIdx _ _ shorter).trans (cons_eraseIdx_perm here)

theorem map_set_of_eq {l : List α} {index : Nat} {a b : α} {f : α → β}
    (here : l[index]? = some a) (same : f b = f a) : (l.set index b).map f = l.map f := by
  obtain ⟨inRange, rfl⟩ := List.getElem?_eq_some_iff.1 here
  have inMapped : index < (l.map f).length := by simpa using inRange
  have item : f b = (l.map f)[index] := by rw [same, List.getElem_map]
  rw [List.map_set, item, List.set_getElem_self]

theorem keys_changed {columns : List Column} {index : Nat} {change : ColumnChange}
    {column changed : Column} (here : columns[index]? = some column)
    (applied : change.apply column = .ok changed) :
    (columns.set index changed).map (·.key) = columns.map (·.key) := by
  obtain ⟨_, rfl⟩ := ColumnChange.apply_eq_ok_iff.1 applied
  exact map_set_of_eq here rfl

theorem ViewEdit.apply_keepsLocked {v next : View} {c : Catalog} {edit : ViewEdit}
    (distinct : c.HasDistinctKeys) (kept : v.KeepsLocked c)
    (accepted : edit.apply (some c) v = .ok next) : next.KeepsLocked c := by
  cases edit with
  | addColumn column =>
      obtain ⟨_, rfl⟩ := apply_addColumn_iff.1 accepted
      exact kept.of_keys_subset (by simp)
  | deleteColumn index =>
      obtain ⟨column, here, free, rfl⟩ := apply_deleteColumn_iff.1 accepted
      exact kept.eraseIdx distinct here free
  | changeColumn index change =>
      obtain ⟨column, here, changed, applied, rfl⟩ := apply_changeColumn_iff.1 accepted
      exact kept.of_keys_subset (by simp [keys_changed here applied])
  | moveColumn source target =>
      obtain ⟨column, here, inRange, rfl⟩ := apply_moveColumn_iff.1 accepted
      exact kept.of_keys_subset ((perm_moved here inRange).map _).symm.subset
  | setFilter filter => cases accepted; exact kept
  | setSortKeys keys => cases accepted; exact kept
  | setGroupBy groupBy => cases accepted; exact kept
  | setTitle title => cases accepted; exact kept
  | setId id => cases accepted; exact kept

end TableView
