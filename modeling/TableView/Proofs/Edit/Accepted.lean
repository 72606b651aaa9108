import TableView.Edit.Apply

/-!
# Accepted edits

For every edit, exactly when it is accepted and what the views then are. Each
equivalence states all guards of the edit together with its result, so that later
proofs about accepted edits need not open the edits again. Several edits are accepted
if each one is, after those before it (`PageViews.applyAll`).
-/

namespace TableView

/-- A sequence of two steps succeeds exactly when both do. -/
theorem bind_eq_ok_iff {x : Except ε α} {f : α → Except ε β} {b : β} :
    x >>= f = .ok b ↔ ∃ a, x = .ok a ∧ f a = .ok b := by
  cases x with
  | error e =>
      constructor
      · intro h
        cases h
      · rintro ⟨_, h, _⟩
        cases h
  | ok a =>
      constructor
      · intro h
        exact ⟨a, rfl, h⟩
      · rintro ⟨_, ⟨⟩, h⟩
        exact h

/-- A change of a column is accepted unless it asks for a style that cannot draw the
column's values. It touches nothing but heading and style. -/
theorem ColumnChange.apply_eq_ok_iff {change : ColumnChange} {c changed : Column} :
    change.apply c = .ok changed ↔
      (∀ style ∈ change.style, style.draws c.kind = true) ∧
        changed = { c with
          style := change.style.getD c.style
          heading := change.heading.getD c.heading } := by
  rw [apply]
  cases change.style with
  | none => simp [@eq_comm _ changed]
  | some style =>
      by_cases drawn : style.draws c.kind = true
      · simp [drawn, @eq_comm _ changed]
      · simp [drawn]

theorem View.columnAt_eq_ok_iff {v : View} {index : Nat} {column : Column} :
    v.columnAt index = .ok column ↔ v.columns[index]? = some column := by
  cases here : v.columns[index]? <;> simp [columnAt, here]

theorem exists_getElem?_iff {l : List α} {index : Nat} :
    (∃ a, l[index]? = some a) ↔ index < l.length := by
  rw [← Option.isSome_iff_exists]
  simp

/-- What a position holds stands between what is before it and what is behind it. -/
theorem exists_split {l : List α} {index : Nat} {a : α} (here : l[index]? = some a) :
    ∃ before after, l = before ++ a :: after ∧ before.length = index := by
  obtain ⟨inRange, rfl⟩ := List.getElem?_eq_some_iff.1 here
  refine ⟨l.take index, l.drop (index + 1), ?_, List.length_take_of_le (Nat.le_of_lt inRange)⟩
  rw [List.getElem_cons_drop, List.take_append_drop]

theorem eraseIdx_of_split {l before after : List α} {a : α} (split : l = before ++ a :: after) :
    l.eraseIdx before.length = before ++ after := by
  rw [split, List.eraseIdx_append_of_length_le (Nat.le_refl _), Nat.sub_self,
    List.eraseIdx_cons_zero]

namespace ViewEdit

variable {catalog : Option Catalog} {v next : View}

theorem apply_addColumn_iff {column : Column} :
    apply catalog v (.addColumn column) = .ok next ↔
      v.shows column.key = false ∧ next = { v with columns := v.columns ++ [column] } := by
  cases shown : v.shows column.key <;> simp [apply, shown, @eq_comm _ next]

theorem apply_deleteColumn_iff {index : Nat} :
    apply catalog v (.deleteColumn index) = .ok next ↔
      ∃ column, v.columns[index]? = some column ∧ column.isHeld catalog = false ∧
        next = { v with columns := v.columns.eraseIdx index } := by
  simp only [apply, bind_eq_ok_iff, View.columnAt_eq_ok_iff]
  refine exists_congr fun column => and_congr_right fun _ => ?_
  cases column.isHeld catalog <;> simp [@eq_comm _ next]

theorem apply_changeColumn_iff {index : Nat} {change : ColumnChange} :
    apply catalog v (.changeColumn index change) = .ok next ↔
      ∃ column, v.columns[index]? = some column ∧ ∃ changed, change.apply column = .ok changed ∧
        next = { v with columns := v.columns.set index changed } := by
  simp only [apply, bind_eq_ok_iff, View.columnAt_eq_ok_iff, Except.ok.injEq, @eq_comm _ next]

theorem apply_moveColumn_iff {source target : Nat} :
    apply catalog v (.moveColumn source target) = .ok next ↔
      ∃ column, v.columns[source]? = some column ∧ target < v.columns.length ∧
        next = { v with columns := (v.columns.eraseIdx source).insertIdx target column } := by
  simp only [apply, bind_eq_ok_iff, Except.ok.injEq, @eq_comm _ next, exists_and_right,
    View.columnAt_eq_ok_iff, exists_getElem?_iff]

end ViewEdit

namespace PageViews

variable {catalog : Option Catalog} {p next : PageViews}

theorem viewAt_eq_ok_iff {index : Nat} {v : View} :
    p.viewAt index = .ok v ↔ p.views[index]? = some v := by
  cases here : p.views[index]? <;> simp [viewAt, here]

theorem apply_inView_iff {index : Nat} {edit : ViewEdit} :
    p.apply catalog (.inView index edit) = .ok next ↔
      edit.refusal? catalog = none ∧ ∃ v, p.views[index]? = some v ∧
        ∃ changed, edit.apply catalog v = .ok changed ∧
          next = { p with views := p.views.set index changed } := by
  cases refused : edit.refusal? catalog with
  | some error => simp [apply, refused]
  | none =>
      simp only [apply, refused, bind_eq_ok_iff, viewAt_eq_ok_iff, Except.ok.injEq,
        @eq_comm _ next, true_and]

theorem apply_selectView_iff {index : Nat} :
    p.apply catalog (.selectView index) = .ok next ↔
      index < p.views.length ∧ next = { p with selected := index } := by
  simp only [apply, bind_eq_ok_iff, Except.ok.injEq, @eq_comm _ next, exists_and_right,
    viewAt_eq_ok_iff, exists_getElem?_iff]

theorem apply_addView_iff {view : View} :
    p.apply catalog (.addView view) = .ok next ↔
      next = { p with
        views := p.views ++ [(catalog.map view.withLocked).getD view]
        selected := p.views.length } := by
  cases catalog <;> simp [apply, @eq_comm _ next]

theorem apply_deleteView_iff {index : Nat} :
    p.apply catalog (.deleteView index) = .ok next ↔
      index < p.views.length ∧ p.views.length ≠ 1 ∧ next = p.deleteView index := by
  simp only [apply, bind_eq_ok_iff, exists_and_right, viewAt_eq_ok_iff, exists_getElem?_iff]
  refine and_congr_right fun _ => ?_
  by_cases last : p.views.length = 1
  · simp [last]
  · simp [last, @eq_comm _ next]

/-- What accepted changes of a view keep, and what views have that are added, all views of a
page keep. -/
theorem apply_forall {P : View → Prop} {edit : Edit} (held : ∀ v ∈ p.views, P v)
    (changed : ∀ index change, edit = .inView index change → change.refusal? catalog = none →
      ∀ v w, P v → change.apply catalog v = .ok w → P w)
    (added : ∀ view, edit = .addView view → P ((catalog.map view.withLocked).getD view))
    (accepted : p.apply catalog edit = .ok next) : ∀ v ∈ next.views, P v := by
  cases edit with
  | inView index change =>
      obtain ⟨unrefused, v, here, w, applied, rfl⟩ := apply_inView_iff.1 accepted
      intro u member
      rcases List.mem_or_eq_of_mem_set member with old | rfl
      · exact held u old
      · exact changed index change rfl unrefused v u (held v (List.mem_of_getElem? here)) applied
  | selectView index =>
      obtain ⟨_, rfl⟩ := apply_selectView_iff.1 accepted
      exact held
  | addView view =>
      obtain rfl := apply_addView_iff.1 accepted
      intro u member
      rcases List.mem_append.1 member with old | new
      · exact held u old
      · obtain rfl := List.mem_singleton.1 new
        exact added view rfl
  | deleteView index =>
      obtain ⟨_, _, rfl⟩ := apply_deleteView_iff.1 accepted
      intro u member
      exact held u (List.mem_of_mem_eraseIdx member)

/-- Applies edits one after the other. All of them must be accepted. -/
def applyAll (catalog : Option Catalog) (p : PageViews) (edits : List Edit) :
    Except EditError PageViews :=
  edits.foldlM (apply catalog) p

@[simp] theorem applyAll_nil_iff : p.applyAll catalog [] = .ok next ↔ next = p := by
  constructor
  · intro applied
    cases applied
    rfl
  · rintro rfl
    rfl

theorem applyAll_cons_iff {edit : Edit} {rest : List Edit} :
    p.applyAll catalog (edit :: rest) = .ok next ↔
      ∃ mid, p.apply catalog edit = .ok mid ∧ mid.applyAll catalog rest = .ok next := by
  rw [applyAll, List.foldlM_cons, bind_eq_ok_iff]
  rfl

end PageViews

end TableView
