import TableView.Proofs.Edit.Accepted

/-!
# Edits in place

An edit is carried out on arrays of views and columns. It first checks what it is about to
touch, and rejects what does not fit; then it touches it by operations that check nothing any
more. Each of these has a bound, and beyond its bound there is no answer at all, not even a
rejection (`Fault`). Taking something out makes an array shorter before the next operation, so
the checks and the bounds are not about the same arrays.

What a move and the deletion of a view need of their arguments is said exactly
(`exists_moveItem_iff`, `PageViews.exists_removeView_iff`), and the checks ensure just that.
So the steps of an edit never fault, whatever the views are and whatever the edit asks for.
-/

namespace TableView

namespace InPlace

/-- An operation beyond its bound. -/
inductive Fault where
  /-- Something is read that is not there. -/
  | read (index length : Nat)
  /-- Something is taken out that is not there. -/
  | removal (index length : Nat)
  /-- Something is put in beyond the end. -/
  | insertion (index length : Nat)
  /-- A part is replaced that is not there, or that ends before it starts. -/
  | replacement (start stop length : Nat)
  /-- A number becomes less than zero. -/
  | underflow
deriving DecidableEq

/-- Reads the item at an index. -/
def readAt (l : List α) (index : Nat) : Except Fault α :=
  match l[index]? with
  | some a => .ok a
  | none => .error (.read index l.length)

/-- Takes out the item at an index. Those behind it move up. -/
def removeAt (l : List α) (index : Nat) : Except Fault (α × List α) :=
  match l[index]? with
  | some a => .ok (a, l.eraseIdx index)
  | none => .error (.removal index l.length)

/-- Puts an item in at an index, which may be the one behind the last item. -/
def insertAt (l : List α) (index : Nat) (a : α) : Except Fault (List α) :=
  if index ≤ l.length then .ok (l.insertIdx index a) else .error (.insertion index l.length)

/-- Puts other items in the place of those from one index up to another. -/
def replaceRange (l : List α) (start stop : Nat) (items : List α) : Except Fault (List α) :=
  if start ≤ stop ∧ stop ≤ l.length then .ok (l.take start ++ items ++ l.drop stop)
  else .error (.replacement start stop l.length)

/-- One less. -/
def decrement : Nat → Except Fault Nat
  | 0 => .error .underflow
  | n + 1 => .ok n

section Bounds

variable {l rest : List α} {index : Nat} {a : α}

theorem readAt_eq_ok_iff : readAt l index = .ok a ↔ l[index]? = some a := by
  cases here : l[index]? <;> simp [readAt, here]

theorem removeAt_eq_ok_iff :
    removeAt l index = .ok (a, rest) ↔ l[index]? = some a ∧ rest = l.eraseIdx index := by
  cases here : l[index]? <;> simp [removeAt, here, @eq_comm _ rest]

theorem insertAt_eq_ok_iff :
    insertAt l index a = .ok rest ↔ index ≤ l.length ∧ rest = l.insertIdx index a := by
  by_cases inRange : index ≤ l.length <;> simp [insertAt, inRange, @eq_comm _ rest]

/-- Items can be put in front of any others. -/
theorem replaceRange_zero (l items : List α) : replaceRange l 0 0 items = .ok (items ++ l) := by
  simp [replaceRange]

theorem decrement_eq_ok_iff {n m : Nat} : decrement n = .ok m ↔ n ≠ 0 ∧ m = n - 1 := by
  cases n <;> simp [decrement, @eq_comm _ m]

end Bounds

/-- Moves an item: takes it out and puts it in at its new place among the others. -/
def moveItem (l : List α) (source target : Nat) : Except Fault (List α) := do
  let (a, others) ← removeAt l source
  insertAt others target a

theorem moveItem_eq_ok_iff {l moved : List α} {source target : Nat} :
    moveItem l source target = .ok moved ↔
      ∃ a, l[source]? = some a ∧ target < l.length ∧
        moved = (l.eraseIdx source).insertIdx target a := by
  simp only [moveItem, bind_eq_ok_iff, Prod.exists, removeAt_eq_ok_iff, insertAt_eq_ok_iff]
  constructor
  · rintro ⟨a, others, ⟨here, rfl⟩, inRange, rfl⟩
    have inside := exists_getElem?_iff.1 ⟨a, here⟩
    rw [List.length_eraseIdx_of_lt inside] at inRange
    exact ⟨a, here, by omega, rfl⟩
  · rintro ⟨a, here, inRange, rfl⟩
    have inside := exists_getElem?_iff.1 ⟨a, here⟩
    refine ⟨a, _, ⟨here, rfl⟩, ?_, rfl⟩
    rw [List.length_eraseIdx_of_lt inside]
    omega

/-- A move does not fault exactly if both places are places of items. The last place is taken as
the end of the others, which are one less. -/
theorem exists_moveItem_iff {l : List α} {source target : Nat} :
    (∃ moved, moveItem l source target = .ok moved) ↔ source < l.length ∧ target < l.length := by
  constructor
  · rintro ⟨moved, notFaulted⟩
    obtain ⟨a, here, inRange, -⟩ := moveItem_eq_ok_iff.1 notFaulted
    exact ⟨exists_getElem?_iff.1 ⟨a, here⟩, inRange⟩
  · rintro ⟨inside, inRange⟩
    obtain ⟨a, here⟩ := exists_getElem?_iff.2 inside
    exact ⟨_, moveItem_eq_ok_iff.2 ⟨a, here, inRange, rfl⟩⟩

/-- Some steps of an edit. A check may reject the edit, and an operation may fault. -/
abbrev Steps (α : Type) : Type := ExceptT EditError (Except Fault) α

namespace Steps

/-- A check, which rejects what does not fit. -/
def check (result : Except EditError α) : Steps α := ExceptT.mk (.ok result)

/-- An operation that checks nothing. -/
def access (result : Except Fault α) : Steps α := ExceptT.lift result

/-- Steps that begin with a check do not fault if those after it do not fault where it is passed,
and they come to the check and what those come to. -/
theorem check_bind_eq {first : Except EditError α} {rest : α → Steps β}
    {next : α → Except EditError β} (later : ∀ a, first = .ok a → rest a = check (next a)) :
    check first >>= rest = check (first >>= next) := by
  cases first with
  | error error => rfl
  | ok a => exact later a rfl

/-- An operation within its bound does not stop the steps. -/
theorem access_bind_eq {result : Except Fault α} {a : α} {rest : α → Steps β}
    (inRange : result = .ok a) : access result >>= rest = rest a := by
  rw [inRange]
  rfl

end Steps

end InPlace

open InPlace Steps

/-- The steps that put the missing locked columns of a catalog in front. -/
def View.withLockedSteps (v : View) (c : Catalog) : Except Fault View := do
  let columns ← replaceRange v.columns 0 0 (v.missingLocked c)
  return { v with columns := columns }

/-- The steps of a change of a view. -/
def ViewEdit.steps (catalog : Option Catalog) (v : View) : ViewEdit → Steps View
  | addColumn column =>
    if v.shows column.key then throw (.duplicateColumn column.key)
    else return { v with columns := v.columns ++ [column] }
  | deleteColumn index => do
    let column ← check (v.columnAt index)
    if column.isHeld catalog then throw (.lockedColumn column.key)
    else
      let (_, columns) ← access (removeAt v.columns index)
      return { v with columns := columns }
  | changeColumn index change => do
    let _ ← check (v.columnAt index)
    let column ← access (readAt v.columns index)
    let changed ← check (change.apply column)
    return { v with columns := v.columns.set index changed }
  | moveColumn source target => do
    let _ ← check (v.columnAt source)
    let _ ← check (v.columnAt target)
    let columns ← access (moveItem v.columns source target)
    return { v with columns := columns }
  | setFilter filter => return { v with filter := filter }
  | setSortKeys keys => return { v with sortKeys := keys }
  | setGroupBy groupBy => return { v with groupBy := groupBy }
  | setTitle title => return { v with title := title }
  | setId id => return { v with id := some id }

namespace PageViews

/-- Takes out the view at an index and counts the selection down if it stood behind that view, or
if it is beyond the views that are left. -/
def removeView (p : PageViews) (index : Nat) : Except Fault PageViews := do
  let (_, views) ← removeAt p.views index
  if index < p.selected ∨ views.length ≤ p.selected then
    let selected ← decrement p.selected
    return { p with views := views, selected := selected }
  else return { p with views := views }

/-- The steps of an edit. -/
def steps (catalog : Option Catalog) (p : PageViews) : Edit → Steps PageViews
  | .inView index edit =>
    match edit.refusal? catalog with
    | some error => throw error
    | none => do
      let v ← check (p.viewAt index)
      let changed ← edit.steps catalog v
      return { p with views := p.views.set index changed }
  | .selectView index => do
    let _ ← check (p.viewAt index)
    return { p with selected := index }
  | .addView view => do
    let added ← match catalog with
      | some c => access (view.withLockedSteps c)
      | none => pure view
    let views := p.views ++ [added]
    let selected ← access (decrement views.length)
    return { p with views := views, selected := selected }
  | .deleteView index => do
    let _ ← check (p.viewAt index)
    if p.views.length = 1 then throw .lastView
    else access (p.removeView index)

end PageViews

theorem View.withLockedSteps_eq (v : View) (c : Catalog) :
    v.withLockedSteps c = .ok (v.withLocked c) := by
  rw [withLockedSteps, replaceRange_zero]
  rfl

/-- The steps of a change of a view come to what the change is. Whatever is touched was found by
a check of the same columns before. -/
theorem ViewEdit.steps_eq (catalog : Option Catalog) (v : View) (edit : ViewEdit) :
    edit.steps catalog v = check (edit.apply catalog v) := by
  cases edit with
  | addColumn column =>
      rw [steps, apply]
      split <;> rfl
  | deleteColumn index =>
      refine check_bind_eq fun column found => ?_
      have here := View.columnAt_eq_ok_iff.1 found
      split
      · rfl
      · rw [access_bind_eq (removeAt_eq_ok_iff.2 ⟨here, rfl⟩)]
        rfl
  | changeColumn index change =>
      refine check_bind_eq fun column found => ?_
      rw [access_bind_eq (readAt_eq_ok_iff.2 (View.columnAt_eq_ok_iff.1 found))]
      exact check_bind_eq fun changed _ => rfl
  | moveColumn source target =>
      refine check_bind_eq fun column found => check_bind_eq fun other foundOther => ?_
      have here := View.columnAt_eq_ok_iff.1 found
      have inRange := exists_getElem?_iff.1 ⟨other, View.columnAt_eq_ok_iff.1 foundOther⟩
      rw [access_bind_eq (moveItem_eq_ok_iff.2 ⟨column, here, inRange, rfl⟩)]
      rfl
  | setFilter | setSortKeys | setGroupBy | setTitle | setId => rfl

namespace PageViews

variable {p next : PageViews} {index : Nat}

theorem removeView_eq_ok_iff :
    p.removeView index = .ok next ↔
      index < p.views.length ∧ (p.selected ≠ 0 ∨ p.views.length ≠ 1) ∧
        next = p.deleteView index := by
  simp only [removeView, bind_eq_ok_iff, Prod.exists, removeAt_eq_ok_iff]
  constructor
  · rintro ⟨v, views, ⟨here, rfl⟩, counted⟩
    have inRange := exists_getElem?_iff.1 ⟨v, here⟩
    have shorter := List.length_eraseIdx_of_lt inRange
    split at counted
    next moved =>
      obtain ⟨selected, down, ⟨⟩⟩ := bind_eq_ok_iff.1 counted
      obtain ⟨nonzero, rfl⟩ := decrement_eq_ok_iff.1 down
      refine ⟨inRange, .inl nonzero, ?_⟩
      rw [deleteView, if_pos moved]
    next stays =>
      cases counted
      refine ⟨inRange, .inr (by omega), ?_⟩
      rw [deleteView, if_neg stays]
  · rintro ⟨inRange, countable, rfl⟩
    obtain ⟨v, here⟩ := exists_getElem?_iff.2 inRange
    have shorter := List.length_eraseIdx_of_lt inRange
    refine ⟨v, _, ⟨here, rfl⟩, ?_⟩
    rw [deleteView]
    split
    next moved =>
      have nonzero : p.selected ≠ 0 := by omega
      exact bind_eq_ok_iff.2 ⟨_, decrement_eq_ok_iff.2 ⟨nonzero, rfl⟩, rfl⟩
    next stays => rfl

/-- The deletion of a view does not fault exactly if the view is there and the selection can be
counted down, or stays. The one selection that cannot is the first place, once the only view is
gone. -/
theorem exists_removeView_iff :
    (∃ next, p.removeView index = .ok next) ↔
      index < p.views.length ∧ (p.selected ≠ 0 ∨ p.views.length ≠ 1) := by
  simp only [removeView_eq_ok_iff, exists_and_left, exists_eq, and_true]

/-- Without the check that keeps the last view its deletion faults. -/
example : removeView ⟨.peers, [.plain "Only" []], 0⟩ 0 = .error .underflow := rfl

/-- No step of an edit faults, whatever the views are, whatever the edit asks for, and with or
without a catalog. The steps come to the result of the edit, or to its rejection. -/
theorem steps_never_fault (catalog : Option Catalog) (p : PageViews) (edit : Edit) :
    (p.steps catalog edit).run = .ok (p.apply catalog edit) := by
  show p.steps catalog edit = check (p.apply catalog edit)
  cases edit with
  | inView index edit =>
      cases refused : edit.refusal? catalog with
      | some error =>
          simp only [steps, apply, refused]
          rfl
      | none =>
          simp only [steps, apply, refused]
          refine check_bind_eq fun v _ => ?_
          rw [ViewEdit.steps_eq]
          exact check_bind_eq fun changed _ => rfl
  | selectView index => exact check_bind_eq fun v _ => rfl
  | addView view =>
      have counted : ∀ added : View,
          decrement (p.views ++ [added]).length = .ok p.views.length := by
        intro added
        rw [List.length_append]
        rfl
      cases catalog with
      | none => exact access_bind_eq (counted view)
      | some c =>
          show access (view.withLockedSteps c) >>= _ = _
          rw [access_bind_eq (view.withLockedSteps_eq c)]
          exact access_bind_eq (counted (view.withLocked c))
  | deleteView index =>
      refine check_bind_eq fun v found => ?_
      have inRange := exists_getElem?_iff.1 ⟨v, viewAt_eq_ok_iff.1 found⟩
      split
      next => rfl
      next notLast =>
        rw [removeView_eq_ok_iff.2 ⟨inRange, .inr notLast, rfl⟩]
        rfl

end PageViews

end TableView
