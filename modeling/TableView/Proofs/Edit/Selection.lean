import TableView.Proofs.Edit.Accepted

/-!
# The selection follows its view

The selection of a page is a position, and a deletion moves the views behind the deleted one.
The selection moves with them, so that it stays on its view until that view is deleted
(`selectedView?_deleteView_of_ne`); then it is on the view behind, or on the one before if there
is none (`selectedView?_deleteView_self`).
Where a view stands after several edits, and what those addressed to it have made of it, is
said without the selection (`Edit.Carries`). A run of edits that neither selects or adds a view
nor deletes the selected one therefore carries the selection with its view
(`PageViews.selection_follows`).
-/

namespace TableView

namespace Edit

/-- Whether some edits take a view from one position to another, changed by those of them that
are addressed to it on its way. -/
inductive Carries (catalog : Option Catalog) : List Edit → Nat → View → Nat → View → Prop where
  | done (i : Nat) (v : View) : Carries catalog [] i v i v
  | changed {edit : ViewEdit} {rest : List Edit} {i j : Nat} {u v w : View}
      (applied : edit.apply catalog u = .ok v) (later : Carries catalog rest i v j w) :
      Carries catalog (inView i edit :: rest) i u j w
  | otherChanged {edit : ViewEdit} {rest : List Edit} {i j k : Nat} {v w : View} (other : k ≠ i)
      (later : Carries catalog rest i v j w) : Carries catalog (inView k edit :: rest) i v j w
  | selected {rest : List Edit} {i j : Nat} {v w : View} (k : Nat)
      (later : Carries catalog rest i v j w) : Carries catalog (selectView k :: rest) i v j w
  | added {rest : List Edit} {i j : Nat} {v w : View} (new : View)
      (later : Carries catalog rest i v j w) : Carries catalog (addView new :: rest) i v j w
  | deletedBefore {rest : List Edit} {i j k : Nat} {v w : View} (before : k ≤ i)
      (later : Carries catalog rest i v j w) : Carries catalog (deleteView k :: rest) (i + 1) v j w
  | deletedBehind {rest : List Edit} {i j k : Nat} {v w : View} (behind : i < k)
      (later : Carries catalog rest i v j w) : Carries catalog (deleteView k :: rest) i v j w

/-- Whether an edit leaves it to the views which of them is selected. -/
def LeavesSelected (selected : Nat) : Edit → Prop
  | inView _ _ => True
  | selectView _ => False
  | addView _ => False
  | deleteView index => index ≠ selected

instance (selected : Nat) (edit : Edit) : Decidable (edit.LeavesSelected selected) :=
  match edit with
  | inView _ _ => inferInstanceAs (Decidable True)
  | selectView _ => inferInstanceAs (Decidable False)
  | addView _ => inferInstanceAs (Decidable False)
  | deleteView index => inferInstanceAs (Decidable (index ≠ selected))

end Edit

namespace PageViews

variable {catalog : Option Catalog} {p next : PageViews} {index : Nat}

/-- The selection stays in range. After a deletion it can only have been beyond the
deleted view, or be the position after the last one that is left. -/
theorem apply_selected_lt {edit : Edit} (inRange : p.selected < p.views.length)
    (accepted : p.apply catalog edit = .ok next) : next.selected < next.views.length := by
  cases edit with
  | inView index change =>
      obtain ⟨_, v, _, changed, _, rfl⟩ := apply_inView_iff.1 accepted
      simpa using inRange
  | selectView index =>
      obtain ⟨selectable, rfl⟩ := apply_selectView_iff.1 accepted
      exact selectable
  | addView view =>
      obtain rfl := apply_addView_iff.1 accepted
      simp
  | deleteView index =>
      obtain ⟨deletable, notLast, rfl⟩ := apply_deleteView_iff.1 accepted
      simp only [deleteView, List.length_eraseIdx_of_lt deletable]
      split <;> omega

/-- A deletion of another view moves the selection only if that view stands before it. -/
theorem selected_deleteView_of_ne (other : index ≠ p.selected)
    (inRange : p.selected < p.views.length) (deletable : index < p.views.length) :
    (p.deleteView index).selected = if index < p.selected then p.selected - 1 else p.selected := by
  have shorter := List.length_eraseIdx_of_lt deletable
  rw [deleteView]
  by_cases before : index < p.selected
  · rw [if_pos (.inl before), if_pos before]
  · rw [if_neg (by omega), if_neg before]

theorem selectedView?_deleteView_of_ne (other : index ≠ p.selected)
    (inRange : p.selected < p.views.length) (deletable : index < p.views.length) :
    (p.deleteView index).selectedView? = p.selectedView? := by
  rw [selectedView?, selected_deleteView_of_ne other inRange deletable, selectedView?]
  by_cases before : index < p.selected
  · obtain ⟨i, place⟩ : ∃ i, p.selected = i + 1 := ⟨p.selected - 1, by omega⟩
    rw [if_pos before, place, Nat.add_sub_cancel]
    exact List.getElem?_eraseIdx_of_ge (by omega)
  · rw [if_neg before]
    exact List.getElem?_eraseIdx_of_lt (by omega)

/-- A deletion of the selected view puts the selection on the view behind it, or on the one
before it if it was the last. -/
theorem selectedView?_deleteView_self {before after : List View} {v : View}
    (split : p.views = before ++ v :: after) (here : before.length = p.selected) :
    (p.deleteView p.selected).selectedView? = after.head?.or before.getLast? := by
  have left : p.views.eraseIdx p.selected = before ++ after := here ▸ eraseIdx_of_split split
  simp only [selectedView?, deleteView, left, List.length_append]
  cases after with
  | nil =>
      rw [if_pos (by simp [here]), ← here, List.append_nil, List.getLast?_eq_getElem?]
      rfl
  | cons w rest =>
      rw [if_neg (by simp [here]), ← here, List.getElem?_append_right (Nat.le_refl _)]
      simp

theorem getElem?_of_carries {edits : List Edit} {i j : Nat} {v w : View}
    (carries : Edit.Carries catalog edits i v j w) (accepted : p.applyAll catalog edits = .ok next)
    (here : p.views[i]? = some v) : next.views[j]? = some w := by
  induction carries generalizing p with
  | done i v =>
      rw [applyAll_nil_iff] at accepted
      rwa [accepted]
  | @changed edit rest i j u v w applied _ ih =>
      obtain ⟨mid, first, later⟩ := applyAll_cons_iff.1 accepted
      obtain ⟨-, found, there, changed, appliedThere, rfl⟩ := apply_inView_iff.1 first
      obtain rfl : found = u := Option.some.inj (there.symm.trans here)
      obtain rfl : changed = v := Except.ok.inj (appliedThere.symm.trans applied)
      exact ih later (List.getElem?_set_self (exists_getElem?_iff.1 ⟨found, here⟩))
  | otherChanged other _ ih =>
      obtain ⟨mid, first, later⟩ := applyAll_cons_iff.1 accepted
      obtain ⟨-, found, -, changed, -, rfl⟩ := apply_inView_iff.1 first
      refine ih later ?_
      rwa [List.getElem?_set_ne other]
  | selected k _ ih =>
      obtain ⟨mid, first, later⟩ := applyAll_cons_iff.1 accepted
      obtain ⟨-, rfl⟩ := apply_selectView_iff.1 first
      exact ih later here
  | added new _ ih =>
      obtain ⟨mid, first, later⟩ := applyAll_cons_iff.1 accepted
      obtain rfl := apply_addView_iff.1 first
      refine ih later ?_
      rwa [List.getElem?_append_left (exists_getElem?_iff.1 ⟨_, here⟩)]
  | deletedBefore before _ ih =>
      obtain ⟨mid, first, later⟩ := applyAll_cons_iff.1 accepted
      obtain ⟨-, -, rfl⟩ := apply_deleteView_iff.1 first
      refine ih later ?_
      rwa [deleteView, List.getElem?_eraseIdx_of_ge before]
  | deletedBehind behind _ ih =>
      obtain ⟨mid, first, later⟩ := applyAll_cons_iff.1 accepted
      obtain ⟨-, -, rfl⟩ := apply_deleteView_iff.1 first
      refine ih later ?_
      rwa [deleteView, List.getElem?_eraseIdx_of_lt behind]

/-- An edit that leaves the selection to the views carries it with its view, and what later edits
make of that view they make of the one that was selected. -/
theorem carries_cons {edit : Edit} {v : View} (accepted : p.apply catalog edit = .ok next)
    (shown : p.selectedView? = some v) (leaves : edit.LeavesSelected p.selected) :
    ∃ u, next.selectedView? = some u ∧ ∀ {rest : List Edit} {j : Nat} {w : View},
      Edit.Carries catalog rest next.selected u j w →
        Edit.Carries catalog (edit :: rest) p.selected v j w := by
  have inRange : p.selected < p.views.length := exists_getElem?_iff.1 ⟨v, shown⟩
  cases edit with
  | inView k change =>
      obtain ⟨-, found, there, changed, applied, rfl⟩ := apply_inView_iff.1 accepted
      by_cases here : k = p.selected
      · subst here
        obtain rfl : found = v := Option.some.inj (there.symm.trans shown)
        exact ⟨changed, List.getElem?_set_self inRange, .changed applied⟩
      · exact ⟨v, (List.getElem?_set_ne here).trans shown, .otherChanged here⟩
  | selectView k => exact leaves.elim
  | addView new => exact leaves.elim
  | deleteView k =>
      obtain ⟨deletable, -, rfl⟩ := apply_deleteView_iff.1 accepted
      refine ⟨v, (selectedView?_deleteView_of_ne leaves inRange deletable).trans shown, ?_⟩
      intro rest j w later
      rw [selected_deleteView_of_ne leaves inRange deletable] at later
      by_cases before : k < p.selected
      · rw [if_pos before] at later
        obtain ⟨i, place⟩ : ∃ i, p.selected = i + 1 := ⟨p.selected - 1, by omega⟩
        rw [place] at before later ⊢
        exact .deletedBefore (Nat.le_of_lt_succ before) later
      · rw [if_neg before] at later
        exact .deletedBehind (Nat.lt_of_le_of_ne (Nat.le_of_not_lt before) (Ne.symm leaves)) later

/-- Whether each edit of a run leaves it to the views which of them is selected, with the selection
as it is when the edit is made. -/
def LeaveSelected (catalog : Option Catalog) : PageViews → List Edit → Prop
  | _, [] => True
  | p, edit :: rest => edit.LeavesSelected p.selected ∧
      ∀ next, p.apply catalog edit = .ok next → next.LeaveSelected catalog rest

/-- A run of edits that leave the selection to the views carries it with its view. -/
theorem exists_carries {edits : List Edit} {v : View}
    (accepted : p.applyAll catalog edits = .ok next) (shown : p.selectedView? = some v)
    (leave : p.LeaveSelected catalog edits) :
    ∃ w, Edit.Carries catalog edits p.selected v next.selected w := by
  induction edits generalizing p v with
  | nil =>
      obtain rfl := applyAll_nil_iff.1 accepted
      exact ⟨v, .done _ v⟩
  | cons edit rest ih =>
      obtain ⟨mid, applied, later⟩ := applyAll_cons_iff.1 accepted
      obtain ⟨leavesNow, leaveLater⟩ := leave
      obtain ⟨u, shownLater, carriesAll⟩ := carries_cons applied shown leavesNow
      obtain ⟨w, carries⟩ := ih later shownLater (leaveLater mid applied)
      exact ⟨w, carriesAll carries⟩

/-- A deletion takes out one view and leaves the others in their order, and the selection with
its view, or with the view behind that one, or before it if it was the last. So a run of accepted
edits that neither selects nor adds a view nor deletes the selected one takes the selection to
wherever it carries the view, and leaves the view as the edits addressed to it have made it. -/
theorem selection_follows (catalog : Option Catalog) (p : PageViews)
    (inRange : p.selected < p.views.length) :
    (∀ index next, p.apply catalog (.deleteView index) = .ok next →
      ∃ before v after shown, p.views = before ++ v :: after ∧ before.length = index ∧
        next.page = p.page ∧ next.views = before ++ after ∧ next.selectedView? = some shown ∧
        (if index = p.selected then after.head?.or before.getLast? else p.selectedView?) =
          some shown) ∧
    ∀ edits next, p.applyAll catalog edits = .ok next → p.LeaveSelected catalog edits →
      ∃ v w, p.selectedView? = some v ∧ Edit.Carries catalog edits p.selected v next.selected w ∧
        next.selectedView? = some w := by
  refine ⟨?_, ?_⟩
  · intro index next accepted
    have stillInRange := apply_selected_lt inRange accepted
    obtain ⟨shown, shownAfter⟩ := exists_getElem?_iff.2 stillInRange
    obtain ⟨deletable, -, rfl⟩ := apply_deleteView_iff.1 accepted
    obtain ⟨v, there⟩ := exists_getElem?_iff.2 deletable
    obtain ⟨before, after, split, here⟩ := exists_split there
    refine ⟨before, v, after, shown, split, here, rfl, here ▸ eraseIdx_of_split split, shownAfter,
      ?_⟩
    by_cases same : index = p.selected
    · subst same
      rw [if_pos rfl, ← selectedView?_deleteView_self split here]
      exact shownAfter
    · rw [if_neg same, ← selectedView?_deleteView_of_ne same inRange deletable]
      exact shownAfter
  · intro edits next accepted leave
    obtain ⟨v, shown⟩ := exists_getElem?_iff.2 inRange
    obtain ⟨w, carries⟩ := exists_carries accepted shown leave
    exact ⟨v, w, shown, carries, getElem?_of_carries carries accepted shown⟩

/-- The second of three views is selected. Deleting it shows the third one. When instead the
first one is deleted, the second one is named anew at its new place and the third one is
deleted, it stays selected. -/
theorem selection_follows_second :
    let named (title : String) : View := View.plain title []
    let p : PageViews := ⟨.peers, [named "A", named "B", named "C"], 1⟩
    let edits : List Edit := [.deleteView 0, .inView 0 (.setTitle "Mine"), .deleteView 1]
    p.selected < p.views.length ∧
      (∃ next, p.apply none (.deleteView 1) = .ok next ∧ next.selectedView? = some (named "C")) ∧
      p.LeaveSelected none edits ∧ ∃ next, p.applyAll none edits = .ok next ∧
        Edit.Carries none edits 1 (named "B") 0 (named "Mine") ∧
        next.selectedView? = some (named "Mine") := by
  intro named p edits
  have inRange : p.selected < p.views.length := by decide
  have leave : p.LeaveSelected none edits := by
    refine ⟨by decide, ?_⟩
    rintro _ ⟨⟩
    refine ⟨trivial, ?_⟩
    rintro _ ⟨⟩
    exact ⟨by decide, fun _ _ => trivial⟩
  obtain ⟨deleted, follows⟩ := selection_follows none p inRange
  obtain ⟨before, v, after, shown, split, here, -, -, shownAfter, place⟩ := deleted 1 _ rfl
  obtain ⟨u, w, selected, carries, carried⟩ := follows edits _ rfl leave
  cases selected
  cases carried
  exact ⟨inRange, ⟨_, rfl, rfl⟩, leave, _, rfl, carries, rfl⟩

end PageViews

end TableView
