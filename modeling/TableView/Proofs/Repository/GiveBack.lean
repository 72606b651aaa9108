import TableView.Proofs.Repository.Files

/-!
# What a saved view is read back as

Saving a view in the repository of files succeeds whatever its filter asks. It is given
back, with the other views of its page, exactly if they all read back as they are and its
id is not that of another view (`FileRepository.save_gives_back_iff`). What reads the
numbers of a file decides which views these are: a reader of nearest numbers reads every
finite constant back (`Binary64.reread?_of_isFinite`), one that rounds a number twice
does not (`FileRepository.storable_not_always_given_back`). A constant that is not finite, or a
filter that is nested too deeply, makes the whole page unreadable by every reader: JSON has
no number that is not finite, and only so many containers may be open at a time.
-/

namespace TableView

open Json

/-- A view reads back if its filter leaves room for the view, its list and its page around it,
and what is read of each of its numbers is this number. -/
def View.ReadsBack [NumberReader] (v : View) : Prop :=
  v.filter.toJson.depth + 3 ≤ nestingLimit ∧ ∀ x ∈ v.filter.numbers, x.reread? = some x

theorem View.readsBack_iff [NumberReader] {v : View} : v.ReadsBack ↔ v.reread? = some v :=
  View.reread?_eq_some_self_iff.symm

/-- A reader that reads all finite numbers back reads exactly the storable views back. -/
theorem View.readsBack_iff_isStorable [NumberReader] {v : View}
    (all : ∀ x : Binary64, x.isFinite → x.reread? = some x) : v.ReadsBack ↔ v.isStorable := by
  rw [ReadsBack, isStorable, Bool.and_eq_true, decide_eq_true_eq, Filter.isFinite_iff, and_comm]
  refine and_congr_left fun _ => forall₂_congr fun x _ => ?_
  constructor
  · intro read
    exact Binary64.isFinite_of_isSome_reread? (Option.isSome_of_eq_some read)
  · exact all x

/-- A saved list reads back if the view that was put there does, and those around it do. -/
theorem SavedViews.mapM_reread?_put_iff [NumberReader] {views : List View} {id : UInt32} {v : View}
    (distinct : (views.map (·.id)).Nodup) :
    (put id v views).mapM View.reread? = some (put id v views) ↔
      v.ReadsBack ∧ ∀ w ∈ views, w.id ≠ some id → w.ReadsBack := by
  simp only [mapM_eq_some_self_iff, mem_put_iff distinct, or_imp, forall_and, forall_eq, and_imp,
    ← View.readsBack_iff]
  rfl

/-- Reads the digits of a number as the nearest number, and takes the power of ten of that. -/
@[reducible]
def Json.NumberReader.twice : NumberReader where
  read? negative d :=
    let digits := (Binary64.ofInt d.digits).units
    let x := if d.exponent < 0
      then Binary64.ofUnits negative digits (Decimal.powerOfTen (-d.exponent).toNat)
      else .ofUnits negative (digits * Decimal.powerOfTen d.exponent.toNat) 1
    if x.isFinite then some x else none
  isFinite_of_read? read := by
    obtain ⟨finite, same⟩ := Option.ite_none_right_eq_some.1 read
    exact Option.some.inj same ▸ finite

/-- The greatest number below one. -/
def belowOne : Binary64 := ⟨false, 0x3fefffffffffffff, by decide⟩

namespace FileRepository

section AnyReader

variable [NumberReader] {r : FileRepository} {page : Page} {v : View} {id : UInt32}
variable {commit : Commit FileRepository}

/-- A repository on a folder that was written only by its own saves and deletes. -/
def Reachable (r : FileRepository) : Prop :=
  ∃ location changes, r = Repository.run (empty location) changes

theorem Reachable.ownFiles (reachable : r.Reachable) : r.OwnFiles := by
  obtain ⟨location, changes, rfl⟩ := reachable
  exact run_ownFiles (ownFiles_empty location) changes

/-- After a view was saved under an id, its page is loaded with exactly this view under the
id, and with the views that it did not replace as they were before. -/
def GivesBack (before after : FileRepository) (page : Page) (v : View) (id : UInt32) : Prop :=
  ∃ response, after.load page = .ok (some response) ∧
    response.views.filter (·.id = some id) = [{ v with id := some id }] ∧
    response.views.filter (·.id ≠ some id) =
      (before.savedViews page).filter fun w => v.id = none ∨ w.id ≠ v.id

/-- The next load sees what is read back of the saved view and of the others, or finds no
views at all in the file. -/
theorem OwnFiles.load_of_saved (own : r.OwnFiles) (saved : r.save page v = .ok (id, commit)) :
    commit.repository.load page =
      ((SavedViews.put id v (r.savedViews page)).mapM View.reread?).elim (.error .json)
        fun stored => .ok (some ⟨page, stored, 0⟩) := by
  obtain ⟨-, written, -⟩ := own.save saved
  have text : commit.repository.files page =
      .text (textOf page (SavedViews.put id v (r.savedViews page))) := by
    rw [written]
    exact Page.update_self ..
  have unblocked : commit.repository.isBlocked = false := by
    rw [written]
    exact own.open_
  exact load_of_text unblocked text (SavedViews.put_ne_nil id v _)

/-- A saved view of which nothing is read back makes its page unreadable. -/
theorem OwnFiles.load_of_unread (own : r.OwnFiles) (saved : r.save page v = .ok (id, commit))
    (unread : v.reread? = none) : commit.repository.load page = .error .json := by
  rw [own.load_of_saved saved]
  cases read : (SavedViews.put id v (r.savedViews page)).mapM View.reread? with
  | none => rfl
  | some stored =>
      have put := SavedViews.mem_put_self id v (r.savedViews page)
      obtain ⟨w, -, again⟩ := exists_mem_of_mapM read put
      have nothing : View.reread? { v with id := some id } = none := by
        rw [View.reread?, Option.map_eq_none_iff] at unread ⊢
        exact unread
      cases nothing.symm.trans again

/-- A page is given back after a save exactly if its list reads back, and a new id is an id of no
other view. -/
theorem OwnFiles.givesBack_iff (own : r.OwnFiles) (saved : r.save page v = .ok (id, commit)) :
    GivesBack r commit.repository page v id ↔
      (SavedViews.put id v (r.savedViews page)).mapM View.reread? =
          some (SavedViews.put id v (r.savedViews page)) ∧
        (v.id = none → ∀ w ∈ r.savedViews page, w.id ≠ some id) := by
  have loaded := own.load_of_saved saved
  obtain ⟨given, -, wellFormed⟩ := own.save saved
  have one : (SavedViews.put id v (r.savedViews page)).filter (·.id = some id) =
      [{ v with id := some id }] := SavedViews.filter_put_self wellFormed.distinct
  have others := SavedViews.filter_save_other_iff (r.savedViews page) v
  rw [SavedViews.save, ← given] at others
  constructor
  · rintro ⟨response, found, self, rest⟩
    rw [loaded] at found
    cases read : (SavedViews.put id v (r.savedViews page)).mapM View.reread? with
    | none => simp [read] at found
    | some stored =>
        simp only [read, Option.elim_some, Except.ok.injEq, Option.some.injEq] at found
        subst found
        have saved := View.filter_mapM_reread? read fun i => i = some id
        have beside := View.filter_mapM_reread? read fun i => i ≠ some id
        rw [self, ← one] at saved
        rw [rest] at beside
        -- As many views are read beside the saved one as the response must have beside it.
        have free : v.id = none → ∀ w ∈ r.savedViews page, w.id ≠ some id := by
          intro new
          have length := length_of_mapM beside
          rw [SavedViews.filter_put_other] at length
          simpa [new] using length.symm
        rw [← others.2 free] at beside
        have either (w : View) : decide (w.id = some id) ∨ decide (w.id ≠ some id) := by
          simpa using Decidable.em (w.id = some id)
        exact ⟨read.symm.trans (mapM_eq_some_self_of_filter either saved beside), free⟩
  · rintro ⟨read, free⟩
    rw [read] at loaded
    exact ⟨_, loaded, one, others.2 free⟩

/-- A view that was saved is given back exactly if it and the views beside it read back and a new
id is an id of no other view. Of a reader that reads all finite numbers back these are the views
that are storable. A view that is not storable makes its page unreadable by every reader, and a new
id is always free while the greatest id is. -/
theorem save_gives_back_iff (reachable : r.Reachable)
    (saved : r.save page v = .ok (id, commit)) :
    (GivesBack r commit.repository page v id ↔
      v.ReadsBack ∧ (∀ w ∈ r.savedViews page, w.id ≠ some id → w.ReadsBack) ∧
        (v.id = none → ∀ w ∈ r.savedViews page, w.id ≠ some id)) ∧
    ((∀ x : Binary64, x.isFinite → x.reread? = some x) →
      (GivesBack r commit.repository page v id ↔
        v.isStorable ∧ (v.id = none → ∀ w ∈ r.savedViews page, w.id ≠ some id))) ∧
    (¬ v.isStorable → commit.repository.load page = .error .json) ∧
    ((∀ w ∈ r.savedViews page, w.id ≠ some 0xffffffff) →
      v.id = none → ∀ w ∈ r.savedViews page, w.id ≠ some id) := by
  have own := reachable.ownFiles
  obtain ⟨given, -, wellFormed⟩ := own.save saved
  have whole := own.givesBack_iff saved
  rw [SavedViews.mapM_reread?_put_iff wellFormed.distinct, and_assoc] at whole
  refine ⟨whole, ?_, ?_, ?_⟩
  · intro all
    have beside : ∀ w ∈ r.savedViews page, w.id ≠ some id → w.ReadsBack := by
      intro w mem _
      exact (View.readsBack_iff_isStorable all).2 (isStorable_of_mem_savedViews mem)
    rw [whole, View.readsBack_iff_isStorable all, and_iff_right beside]
  · intro unstorable
    refine own.load_of_unread saved ?_
    exact View.reread?_of_not_isStorable (Bool.eq_false_iff.2 unstorable)
  · intro below new
    rw [given]
    exact SavedViews.idFor_fresh below new

/-- The view that shows the records whose amount is a number. -/
def amountIs (value : Binary64) : View :=
  { View.plain "Amount" [] with filter := .clause ⟨"amt", .number (.equals value)⟩ }

/-- A number that a first view compares with reads back if the view is given back. -/
theorem reread?_of_givesBack_amountIs {value : Binary64}
    (saved : (empty "views").save page (amountIs value) = .ok (id, commit))
    (given : GivesBack (empty "views") commit.repository page (amountIs value) id) :
    value.reread? = some value := by
  have own := ownFiles_empty "views"
  obtain ⟨-, -, wellFormed⟩ := own.save saved
  obtain ⟨read, -⟩ := (own.givesBack_iff saved).1 given
  obtain ⟨⟨-, each⟩, -⟩ := (SavedViews.mapM_reread?_put_iff wellFormed.distinct).1 read
  exact each value (List.mem_singleton_self value)

end AnyReader

/-- The first view of a page is given back if it compares with a finite number. -/
theorem save_gives_back_zero :
    ∃ commit, (empty "views").save .peers (amountIs (.zero false)) = .ok (1, commit) ∧
      (empty "views").Reachable ∧
      GivesBack (empty "views") commit.repository .peers (amountIs (.zero false)) 1 := by
  have reachable : (empty "views").Reachable := ⟨"views", [], rfl⟩
  have free : ∀ w ∈ (empty "views").savedViews .peers, w.id ≠ some 1 := List.forall_mem_nil _
  refine ⟨_, rfl, reachable, ?_⟩
  refine ((save_gives_back_iff reachable rfl).2.1 fun _ => Binary64.reread?_of_isFinite).2 ?_
  exact ⟨by decide, fun _ => free⟩

/-- Whatever reads the files, a view that compares with the number that is none is saved, but not
given back. -/
theorem save_not_always_gives_back :
    ¬ ∃ _ : NumberReader, ∀ (r : FileRepository) (page : Page) (v : View) (id : UInt32)
      (commit : Commit FileRepository), r.Reachable → r.save page v = .ok (id, commit) →
      GivesBack r commit.repository page v id := by
  rintro ⟨reader, always⟩
  obtain ⟨response, found, -⟩ :=
    always (empty "views") .peers (amountIs .nan) 1 _ ⟨"views", [], rfl⟩ rfl
  have unread : (amountIs .nan).reread? = none := View.reread?_of_not_isStorable (by decide)
  rw [(ownFiles_empty "views").load_of_unread rfl unread] at found
  cases found

/-- A reader that rounds a number twice does not even give all storable views back: it reads
0.9999999999999999 as one. -/
theorem storable_not_always_given_back :
    ¬ ∀ (_ : NumberReader) (r : FileRepository) (page : Page) (v : View) (id : UInt32)
      (commit : Commit FileRepository), v.isStorable → r.Reachable →
      r.save page v = .ok (id, commit) → GivesBack r commit.repository page v id := by
  intro always
  have one : @Binary64.reread? .twice belowOne = some (.ofInt 1) := by decide +kernel
  have given := always .twice (empty "views") .peers (amountIs belowOne) 1 _ (by decide)
    ⟨"views", [], rfl⟩ rfl
  have same := @reread?_of_givesBack_amountIs NumberReader.twice _ _ _ _ rfl given
  exact absurd (one.symm.trans same) (by decide +kernel)

end FileRepository

end TableView
