import TableView.Proofs.Edit.Accepted

/-!
# Deleting columns in any order

The columns of a view that nothing locks (`Column.IsFree`) can be deleted one after the other, in
whatever order. Each deletion takes out one of them and no other column, so a run of deletions can
be continued as long as one is left, and all runs that cannot be continued are equally long and
lead to the same view: the one with the locked columns as they stood (`deleteColumns_confluent`).
-/

namespace TableView

/-- Whether nothing locks a column: neither its own mark nor that of the first column that the
catalog has under its key. -/
def Column.IsFree (catalog : Option Catalog) (c : Column) : Prop :=
  c.locked = false ∧ ∀ k ∈ catalog, ∀ first ∈ k.columns.find? (·.key == c.key), first.locked = false

theorem Column.isHeld_eq_false_iff {catalog : Option Catalog} {c : Column} :
    c.isHeld catalog = false ↔ c.IsFree catalog := by
  rw [isHeld, IsFree, Bool.or_eq_false_iff]
  refine and_congr_right fun _ => ?_
  cases catalog with
  | none => simp
  | some k =>
      have inCatalog : k.locks c.key = (k.columns.find? (·.key == c.key)).any (·.locked) := rfl
      cases found : k.columns.find? (·.key == c.key) <;> simp [inCatalog, found]

instance (catalog : Option Catalog) (c : Column) : Decidable (c.IsFree catalog) :=
  decidable_of_iff _ Column.isHeld_eq_false_iff

namespace PageViews

variable {catalog : Option Catalog} {p next : PageViews} {index : Nat} {v : View}

/-- The views of a page with other columns in a view that stands at a position. -/
def withColumns (p : PageViews) (index : Nat) (v : View) (columns : List Column) : PageViews :=
  { p with views := p.views.set index { v with columns := columns } }

theorem withColumns_self (here : p.views[index]? = some v) :
    p.withColumns index v v.columns = p := by
  obtain ⟨inRange, rfl⟩ := List.getElem?_eq_some_iff.1 here
  rw [withColumns, List.set_getElem_self]

theorem getElem?_withColumns (here : p.views[index]? = some v) (columns : List Column) :
    (p.withColumns index v columns).views[index]? = some { v with columns := columns } :=
  List.getElem?_set_self (exists_getElem?_iff.1 ⟨v, here⟩)

@[simp] theorem withColumns_withColumns (p : PageViews) (index : Nat) (v : View)
    (columns others : List Column) :
    (p.withColumns index v columns).withColumns index { v with columns := columns } others =
      p.withColumns index v others := by
  simp [withColumns]

theorem apply_deleteColumn_iff (here : p.views[index]? = some v) {i : Nat} :
    p.apply catalog (.inView index (.deleteColumn i)) = .ok next ↔
      ∃ c, v.columns[i]? = some c ∧ c.IsFree catalog ∧
        next = p.withColumns index v (v.columns.eraseIdx i) := by
  have unrefused : (ViewEdit.deleteColumn i).refusal? catalog = none := rfl
  simp only [apply_inView_iff, unrefused, here, Option.some.injEq, true_and,
    ViewEdit.apply_deleteColumn_iff, Column.isHeld_eq_false_iff, exists_eq_left']
  constructor
  · rintro ⟨_, ⟨c, held, free, rfl⟩, rfl⟩
    exact ⟨c, held, free, rfl⟩
  · rintro ⟨c, held, free, rfl⟩
    exact ⟨_, ⟨c, held, free, rfl⟩, rfl⟩

/-- A column can be deleted as long as one is left that nothing locks. -/
theorem exists_deleteColumn_iff (here : p.views[index]? = some v) :
    (∃ i next, p.apply catalog (.inView index (.deleteColumn i)) = .ok next) ↔
      ∃ c ∈ v.columns, c.IsFree catalog := by
  constructor
  · rintro ⟨i, next, accepted⟩
    obtain ⟨c, held, free, -⟩ := (apply_deleteColumn_iff here).1 accepted
    exact ⟨c, List.mem_of_getElem? held, free⟩
  · rintro ⟨c, shown, free⟩
    obtain ⟨i, held⟩ := List.mem_iff_getElem?.1 shown
    exact ⟨i, _, (apply_deleteColumn_iff here).2 ⟨c, held, free, rfl⟩⟩

/-- Deletes columns of a view, one after the other. -/
def deleteColumns (catalog : Option Catalog) (p : PageViews) (index : Nat) (deletions : List Nat) :
    Except EditError PageViews :=
  p.applyAll catalog (deletions.map fun i => .inView index (.deleteColumn i))

theorem deleteColumns_cons_iff (here : p.views[index]? = some v) {i : Nat} {rest : List Nat} :
    p.deleteColumns catalog index (i :: rest) = .ok next ↔
      ∃ c, v.columns[i]? = some c ∧ c.IsFree catalog ∧
        (p.withColumns index v (v.columns.eraseIdx i)).deleteColumns catalog index rest =
          .ok next := by
  rw [deleteColumns, List.map_cons, applyAll_cons_iff]
  constructor
  · rintro ⟨mid, first, later⟩
    obtain ⟨c, held, free, rfl⟩ := (apply_deleteColumn_iff here).1 first
    exact ⟨c, held, free, later⟩
  · rintro ⟨c, held, free, later⟩
    exact ⟨_, (apply_deleteColumn_iff here).2 ⟨c, held, free, rfl⟩, later⟩

theorem deleteColumns_append_iff {deletions more : List Nat} :
    p.deleteColumns catalog index (deletions ++ more) = .ok next ↔
      ∃ mid, p.deleteColumns catalog index deletions = .ok mid ∧
        mid.deleteColumns catalog index more = .ok next := by
  rw [deleteColumns, List.map_append, applyAll, List.foldlM_append, bind_eq_ok_iff]
  rfl

/-- Deletions take one column each from those that nothing locks, and leave all others. -/
theorem exists_of_deleteColumns (here : p.views[index]? = some v) {deletions : List Nat}
    (accepted : p.deleteColumns catalog index deletions = .ok next) :
    ∃ left, next = p.withColumns index v left ∧ left.Sublist v.columns ∧
      left.filter (¬ ·.IsFree catalog) = v.columns.filter (¬ ·.IsFree catalog) ∧
      deletions.length + left.countP (·.IsFree catalog) = v.columns.countP (·.IsFree catalog) := by
  induction deletions generalizing p v with
  | nil =>
      obtain rfl := applyAll_nil_iff.1 accepted
      exact ⟨v.columns, (withColumns_self here).symm, .refl _, rfl, Nat.zero_add _⟩
  | cons i rest ih =>
      obtain ⟨c, held, free, later⟩ := (deleteColumns_cons_iff here).1 accepted
      obtain ⟨left, rfl, sublist, locked, count⟩ := ih (getElem?_withColumns here _) later
      obtain ⟨before, after, split, rfl⟩ := exists_split held
      have shorter : v.columns.eraseIdx before.length = before ++ after := eraseIdx_of_split split
      -- The deleted column is none of the locked ones, and one of those that are counted.
      simp only [shorter] at sublist locked count
      refine ⟨left, by simp, ?_, ?_, ?_⟩
      · rw [split]
        exact sublist.trans (List.Sublist.append_left (List.sublist_cons_self c after) before)
      · rw [locked, split]
        simp [free]
      · rw [split, List.length_cons, List.countP_append,
          List.countP_cons_of_pos (by simpa using free)]
        rw [List.countP_append] at count
        omega

theorem exists_deleteColumns (catalog : Option Catalog) (here : p.views[index]? = some v) :
    ∃ deletions, deletions.length = v.columns.countP (·.IsFree catalog) ∧
      p.deleteColumns catalog index deletions =
        .ok (p.withColumns index v (v.columns.filter (¬ ·.IsFree catalog))) := by
  generalize counted : v.columns.countP (·.IsFree catalog) = count
  induction count generalizing p v with
  | zero =>
      have noneFree : ∀ c ∈ v.columns, ¬ c.IsFree catalog := by simpa using counted
      have kept : v.columns.filter (¬ ·.IsFree catalog) = v.columns := by simpa using noneFree
      refine ⟨[], rfl, ?_⟩
      rw [kept, withColumns_self here]
      rfl
  | succ count ih =>
      have someFree : 0 < v.columns.countP (·.IsFree catalog) := by omega
      obtain ⟨c, shown, free⟩ := List.countP_pos_iff.1 someFree
      have isFree : c.IsFree catalog := by simpa using free
      obtain ⟨before, after, split⟩ := List.append_of_mem shown
      have shorter : v.columns.eraseIdx before.length = before ++ after := eraseIdx_of_split split
      have held : v.columns[before.length]? = some c := by simp [split]
      have fewer : (v.columns.eraseIdx before.length).countP (·.IsFree catalog) = count := by
        rw [split, List.countP_append, List.countP_cons_of_pos (by exact free)] at counted
        rw [shorter, List.countP_append]
        omega
      have sameLocked : (v.columns.eraseIdx before.length).filter (¬ ·.IsFree catalog) =
          v.columns.filter (¬ ·.IsFree catalog) := by
        rw [shorter, split]
        simp [isFree]
      obtain ⟨deletions, length, accepted⟩ := ih (getElem?_withColumns here _) fewer
      refine ⟨before.length :: deletions, by rw [List.length_cons, length], ?_⟩
      refine (deleteColumns_cons_iff here).2 ⟨c, held, isFree, ?_⟩
      rw [accepted, withColumns_withColumns]
      exact congrArg (fun columns => Except.ok (p.withColumns index v columns)) sameLocked

/-- Deletions of columns can be continued until only locked columns are left, and no longer. All
that cannot be continued are as many as the columns that nothing locks, and leave the locked ones in
their order, and whatever was deleted first, there are further deletions that lead there. -/
theorem deleteColumns_confluent (catalog : Option Catalog) (p : PageViews) (index : Nat) (v : View)
    (here : p.views[index]? = some v) (deletions : List Nat) (next : PageViews)
    (accepted : p.deleteColumns catalog index deletions = .ok next) :
    ∃ left, next = p.withColumns index v left ∧ left.Sublist v.columns ∧
      deletions.length + left.countP (·.IsFree catalog) = v.columns.countP (·.IsFree catalog) ∧
      ((∃ i further, next.apply catalog (.inView index (.deleteColumn i)) = .ok further) ↔
        ∃ c ∈ left, c.IsFree catalog) ∧
      ((∀ i further, next.apply catalog (.inView index (.deleteColumn i)) ≠ .ok further) →
        deletions.length = v.columns.countP (·.IsFree catalog) ∧
          left = v.columns.filter (¬ ·.IsFree catalog)) ∧
      ∃ more, deletions.length + more.length = v.columns.countP (·.IsFree catalog) ∧
        p.deleteColumns catalog index (deletions ++ more) =
          .ok (p.withColumns index v (v.columns.filter (¬ ·.IsFree catalog))) := by
  obtain ⟨left, rfl, sublist, locked, count⟩ := exists_of_deleteColumns here accepted
  have there := getElem?_withColumns here left
  have continues : (∃ i further, (p.withColumns index v left).apply catalog
      (.inView index (.deleteColumn i)) = .ok further) ↔ ∃ c ∈ left, c.IsFree catalog :=
    exists_deleteColumn_iff there
  refine ⟨left, rfl, sublist, count, continues, ?_, ?_⟩
  · intro stops
    have noneFree : ∀ c ∈ left, ¬ c.IsFree catalog := by
      intro c shown free
      obtain ⟨i, further, deleted⟩ := continues.2 ⟨c, shown, free⟩
      exact stops i further deleted
    have noneCounted : left.countP (·.IsFree catalog) = 0 := by simpa using noneFree
    have kept : left.filter (¬ ·.IsFree catalog) = left := by simpa using noneFree
    exact ⟨by omega, kept.symm.trans locked⟩
  · obtain ⟨more, length, completed⟩ := exists_deleteColumns catalog there
    rw [withColumns_withColumns, locked] at completed
    have total : deletions.length + more.length = v.columns.countP (·.IsFree catalog) := by
      rw [length, count]
    exact ⟨more, total, deleteColumns_append_iff.2 ⟨_, accepted, completed⟩⟩

/-- A view of the peers shows the alias without its mark, the key twice and a column of its own that
is marked. Only the two copies of the key can be deleted. -/
theorem deleteColumns_confluent_peers :
    let peerAlias := Column.plain "peerAlias" "Alias" .nodeAlias .text
    let pubKey := Column.plain "pubKey" "Key" .longText .text
    let note := { Column.plain "note" "Note" .text .text with locked := true }
    let v : View := .plain "Mine" [pubKey, peerAlias, note, pubKey]
    let p : PageViews := ⟨.peers, [v], 0⟩
    let last := p.withColumns 0 v [peerAlias, note]
    p.views[0]? = some v ∧ p.deleteColumns (some .peers) 0 [3, 0] = .ok last ∧
      (∀ i further, last.apply (some .peers) (.inView 0 (.deleteColumn i)) ≠ .ok further) ∧
      ∃ more : List Nat, more.length = 1 ∧
        p.deleteColumns (some .peers) 0 ([0] ++ more) = .ok last := by
  intro peerAlias pubKey note v p last
  have here : p.views[0]? = some v := rfl
  have accepted : p.deleteColumns (some .peers) 0 [3, 0] = .ok last := rfl
  have lockedOnly : ¬ ∃ c ∈ [peerAlias, note], c.IsFree (some .peers) := by decide
  have filtered : v.columns.filter (¬ ·.IsFree (some .peers)) = [peerAlias, note] := by decide
  have counted : v.columns.countP (·.IsFree (some .peers)) = 2 := by decide
  refine ⟨here, accepted, ?_, ?_⟩
  · obtain ⟨left, leads, -, -, continues, -⟩ :=
      deleteColumns_confluent (some .peers) p 0 v here [3, 0] last accepted
    obtain rfl : [peerAlias, note] = left :=
      congrArg (fun q : PageViews => (q.views.headD v).columns) leads
    intro i further deleted
    exact lockedOnly (continues.1 ⟨i, further, deleted⟩)
  · obtain ⟨-, -, -, -, -, -, more, length, completed⟩ :=
      deleteColumns_confluent (some .peers) p 0 v here [0] _ rfl
    rw [counted, List.length_singleton] at length
    rw [filtered] at completed
    exact ⟨more, by omega, completed⟩

end PageViews

end TableView
