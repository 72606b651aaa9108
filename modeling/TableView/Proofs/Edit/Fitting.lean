import TableView.Proofs.Edit.Locked
import TableView.Proofs.Render.Presentation

/-!
# Views that fit their catalog

A view fits the catalog of its page if it shows no key twice, only keys that the catalog has, and
every column in a style that can draw its values. Nothing checks this of a view as a whole. But
the locked columns that a view is given come from the catalog, a column is added only if the
catalog has its key and the view does not, and a style is changed only to one that can draw the
column. So a view that fits still does after every accepted edit, as long as the columns that are
added are themselves drawn in a style that can draw them (`PageViews.apply_fits`).
-/

namespace TableView

/-- Whether a column is drawn in a style that can draw its values. -/
def Column.IsDrawn (c : Column) : Prop := c.style.draws c.kind = true

instance (c : Column) : Decidable c.IsDrawn := inferInstanceAs (Decidable (_ = true))

/-- Whether no two columns of a catalog have one key and each is drawn in a style that can draw
its values. -/
structure Catalog.IsSound (c : Catalog) : Prop where
  distinct : c.HasDistinctKeys
  drawn : ∀ column ∈ c.columns, column.IsDrawn

instance (c : Catalog) : Decidable c.IsSound :=
  decidable_of_iff (c.HasDistinctKeys ∧ ∀ column ∈ c.columns, column.IsDrawn)
    ⟨fun ⟨distinct, drawn⟩ => ⟨distinct, drawn⟩, fun ⟨distinct, drawn⟩ => ⟨distinct, drawn⟩⟩

/-- Whether a view shows no key twice and no key that a catalog does not have, and each column in
a style that can draw its values. -/
structure View.Fits (v : View) (c : Catalog) : Prop where
  distinct : v.HasDistinctKeys
  known : ∀ column ∈ v.columns, ∃ own ∈ c.columns, own.key = column.key
  drawn : ∀ column ∈ v.columns, column.IsDrawn

instance (v : View) (c : Catalog) : Decidable (v.Fits c) :=
  decidable_of_iff (v.HasDistinctKeys ∧
      (∀ column ∈ v.columns, ∃ own ∈ c.columns, own.key = column.key) ∧
      ∀ column ∈ v.columns, column.IsDrawn)
    ⟨fun ⟨distinct, known, drawn⟩ => ⟨distinct, known, drawn⟩,
      fun ⟨distinct, known, drawn⟩ => ⟨distinct, known, drawn⟩⟩

namespace View.Fits

variable {v next : View} {c : Catalog}

/-- A view fits if it has only columns of one that does, none of them twice. -/
theorem of_subset (fits : v.Fits c) (distinct : next.HasDistinctKeys)
    (subset : next.columns ⊆ v.columns) : next.Fits c where
  distinct := distinct
  known column mem := fits.known column (subset mem)
  drawn column mem := fits.drawn column (subset mem)

/-- A view fits if it has the columns of one that does, and besides them, wherever they stand,
columns of the catalog's keys that were not shown. -/
theorem of_perm_append (fits : v.Fits c) (added : List Column)
    (perm : next.columns.Perm (added ++ v.columns)) (distinct : (added.map (·.key)).Nodup)
    (new : ∀ column ∈ added, v.shows column.key = false)
    (known : ∀ column ∈ added, ∃ own ∈ c.columns, own.key = column.key)
    (drawn : ∀ column ∈ added, column.IsDrawn) : next.Fits c := by
  have split : ∀ column ∈ next.columns, column ∈ added ∨ column ∈ v.columns :=
    fun column mem => List.mem_append.1 (perm.mem_iff.1 mem)
  refine ⟨?_, ?_, ?_⟩
  · rw [HasDistinctKeys, (perm.map _).nodup_iff, List.map_append, List.nodup_append]
    refine ⟨distinct, fits.distinct, ?_⟩
    intro key memAdded other memShown same
    obtain ⟨column, isAdded, rfl⟩ := List.mem_map.1 memAdded
    obtain ⟨shown, found, rfl⟩ := List.mem_map.1 memShown
    have hidden := new column isAdded
    rw [shows_iff.2 ⟨shown, found, same.symm⟩] at hidden
    cases hidden
  · intro column mem
    exact (split column mem).elim (known column) (fits.known column)
  · intro column mem
    exact (split column mem).elim (drawn column) (fits.drawn column)

theorem withLocked (fits : v.Fits c) (sound : c.IsSound) : (v.withLocked c).Fits c := by
  have sublist : (v.missingLocked c).Sublist c.columns :=
    List.filter_sublist.trans List.filter_sublist
  have distinct : ((v.missingLocked c).map (·.key)).Nodup :=
    sound.distinct.sublist (sublist.map _)
  refine fits.of_perm_append (v.missingLocked c) (.refl _) distinct ?_ ?_ ?_
  · intro column mem
    simpa using (List.mem_filter.1 mem).2
  · intro column mem
    exact ⟨column, sublist.subset mem, rfl⟩
  · intro column mem
    exact sound.drawn column (sublist.subset mem)

end View.Fits

/-- A changed column keeps its key, and a style that can draw its values. -/
theorem ColumnChange.apply_isDrawn {change : ColumnChange} {c changed : Column}
    (drawn : c.IsDrawn) (applied : change.apply c = .ok changed) :
    changed.key = c.key ∧ changed.IsDrawn := by
  obtain ⟨checked, rfl⟩ := apply_eq_ok_iff.1 applied
  refine ⟨rfl, ?_⟩
  cases style : change.style with
  | none => simpa [Column.IsDrawn, style] using drawn
  | some new => simpa [Column.IsDrawn, style] using checked new style

theorem View.Fits.set {v : View} {c : Catalog} (fits : v.Fits c) {index : Nat}
    {change : ColumnChange} {column changed : Column} (here : v.columns[index]? = some column)
    (applied : change.apply column = .ok changed) :
    ({ v with columns := v.columns.set index changed } : View).Fits c := by
  have mem := List.mem_of_getElem? here
  obtain ⟨sameKey, drawn⟩ := change.apply_isDrawn (fits.drawn column mem) applied
  refine ⟨?_, ?_, ?_⟩
  · rw [HasDistinctKeys, keys_changed here applied]
    exact fits.distinct
  · intro other memNew
    rcases List.mem_or_eq_of_mem_set memNew with old | rfl
    · exact fits.known other old
    · rw [sameKey]
      exact fits.known column mem
  · intro other memNew
    rcases List.mem_or_eq_of_mem_set memNew with old | rfl
    · exact fits.drawn other old
    · exact drawn

/-- A catalog admits only columns whose keys it has. -/
theorem ViewEdit.exists_key_of_unrefused {c : Catalog} {column : Column}
    (unrefused : (addColumn column).refusal? (some c) = none) :
    ∃ own ∈ c.columns, own.key = column.key := by
  cases found : c.column? column.key with
  | none => simp [refusal?, found] at unrefused
  | some own => exact ⟨own, List.mem_of_find?_eq_some found, Column.key_of_find? found⟩

theorem ViewEdit.apply_fits {v next : View} {c : Catalog} {edit : ViewEdit} (fits : v.Fits c)
    (drawn : ∀ column, edit = .addColumn column → column.IsDrawn)
    (unrefused : edit.refusal? (some c) = none) (accepted : edit.apply (some c) v = .ok next) :
    next.Fits c := by
  cases edit with
  | addColumn column =>
      obtain ⟨new, rfl⟩ := apply_addColumn_iff.1 accepted
      refine fits.of_perm_append [column] List.perm_append_comm (List.nodup_singleton _) ?_ ?_ ?_
      · simpa using new
      · simpa using exists_key_of_unrefused unrefused
      · simpa using drawn column rfl
  | deleteColumn index =>
      obtain ⟨_, _, _, rfl⟩ := apply_deleteColumn_iff.1 accepted
      have sublist := List.eraseIdx_sublist v.columns index
      exact fits.of_subset (fits.distinct.sublist (sublist.map _)) sublist.subset
  | changeColumn index change =>
      obtain ⟨column, here, changed, applied, rfl⟩ := apply_changeColumn_iff.1 accepted
      exact fits.set here applied
  | moveColumn source target =>
      obtain ⟨column, here, inRange, rfl⟩ := apply_moveColumn_iff.1 accepted
      have perm := perm_moved here inRange
      exact fits.of_subset ((perm.map _).nodup_iff.2 fits.distinct) perm.subset
  | setFilter _ | setSortKeys _ | setGroupBy _ | setTitle _ | setId _ =>
      cases accepted
      exact fits.of_subset fits.distinct (List.Subset.refl _)

/-- An accepted edit of views that fit yields views that do, if what it brings fits. -/
theorem PageViews.apply_fits {p next : PageViews} {c : Catalog} {edit : Edit} (sound : c.IsSound)
    (fits : ∀ v ∈ p.views, v.Fits c)
    (drawn : ∀ index column, edit = .inView index (.addColumn column) → column.IsDrawn)
    (added : ∀ view, edit = .addView view → view.Fits c)
    (accepted : p.apply (some c) edit = .ok next) : ∀ v ∈ next.views, v.Fits c := by
  refine apply_forall fits ?_ ?_ accepted
  · intro index change asked unrefused v w fitsBefore applied
    refine change.apply_fits fitsBefore ?_ unrefused applied
    intro column adds
    exact drawn index column (by rw [asked, adds])
  · intro view asked
    exact (added view asked).withLocked sound

end TableView
