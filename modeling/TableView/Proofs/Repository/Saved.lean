import TableView.Repository.Basic

/-!
# Lists of saved views

Every saved view has an id, and no two have the same (`SavedViews.WellFormed`).
Saving and deleting keep this. Saving a view leaves one view with its id and does
not touch the views with other ids, and the next free id is free as long as the
greatest id has not been given away.
-/

namespace TableView.SavedViews

variable {views rest : List View} {id : UInt32} {v w : View}

/-- Every view has an id of its own. -/
structure WellFormed (views : List View) : Prop where
  identified : ∀ v ∈ views, v.id ≠ none
  distinct : (views.map (·.id)).Nodup

theorem WellFormed.nil : WellFormed [] := ⟨by simp, by simp⟩

/-- Well-formedness is about ids only. -/
theorem WellFormed.of_map_id {others : List View} (wellFormed : WellFormed views)
    (same : others.map (·.id) = views.map (·.id)) : WellFormed others := by
  refine ⟨?_, same ▸ wellFormed.distinct⟩
  intro v mem none
  have listed : v.id ∈ views.map (·.id) := same ▸ List.mem_map_of_mem mem
  obtain ⟨w, known, equal⟩ := List.mem_map.1 listed
  exact wellFormed.identified w known (equal.trans none)

theorem mem_put (mem : w ∈ put id v views) : w = { v with id := some id } ∨ w ∈ views := by
  induction views with
  | nil => exact .inl (List.mem_singleton.1 mem)
  | cons u rest ih =>
      by_cases same : u.id = some id
      · rw [put, if_pos same, List.mem_cons] at mem
        exact mem.imp_right (List.mem_cons_of_mem u)
      · rw [put, if_neg same, List.mem_cons] at mem
        obtain first | mem := mem
        · exact .inr (first ▸ List.mem_cons_self)
        · exact (ih mem).imp_right (List.mem_cons_of_mem u)

theorem mem_put_self (id : UInt32) (v : View) (views : List View) :
    { v with id := some id } ∈ put id v views := by
  induction views with
  | nil => exact List.mem_singleton_self _
  | cons w rest ih =>
      by_cases same : w.id = some id
      · rw [put, if_pos same]
        exact List.mem_cons_self
      · rw [put, if_neg same]
        exact List.mem_cons_of_mem w ih

theorem put_ne_nil (id : UInt32) (v : View) (views : List View) : put id v views ≠ [] := by
  cases views with
  | nil => exact List.cons_ne_nil _ _
  | cons w rest =>
      rw [put]
      split <;> exact List.cons_ne_nil _ _

/-- The ids of a list grow by the id of the view that is put there, unless it was one of them. -/
theorem map_id_put (id : UInt32) (v : View) (views : List View) :
    (put id v views).map (·.id) =
      if some id ∈ views.map (·.id) then views.map (·.id)
      else views.map (·.id) ++ [some id] := by
  induction views with
  | nil => simp [put]
  | cons w rest ih =>
      by_cases same : w.id = some id
      · rw [put, if_pos same, if_pos (by simp [same])]
        simp only [List.map_cons, same]
      · rw [put, if_neg same, List.map_cons, ih, List.map_cons]
        by_cases later : some id ∈ rest.map (·.id)
        · rw [if_pos later, if_pos (List.mem_cons_of_mem _ later)]
        · rw [if_neg later, if_neg (by simpa [Ne.symm same] using later), List.cons_append]

theorem WellFormed.put (wellFormed : WellFormed views) (id : UInt32) (v : View) :
    WellFormed (put id v views) := by
  constructor
  · intro w mem
    obtain rfl | mem := mem_put mem
    · exact Option.some_ne_none id
    · exact wellFormed.identified w mem
  · rw [map_id_put]
    split
    · exact wellFormed.distinct
    next fresh =>
      rw [List.nodup_append]
      refine ⟨wellFormed.distinct, by simp, ?_⟩
      intro i mem j same equal
      rw [List.mem_singleton.1 same] at equal
      exact fresh (equal ▸ mem)

theorem filter_put_self (distinct : (views.map (·.id)).Nodup) :
    (put id v views).filter (·.id = some id) = [{ v with id := some id }] := by
  induction views with
  | nil => simp [put]
  | cons w rest ih =>
      rw [List.map_cons, List.nodup_cons] at distinct
      by_cases same : w.id = some id
      · have later : rest.filter (·.id = some id) = [] := by
          rw [List.filter_eq_nil_iff]
          intro u mem
          have different : u.id ≠ w.id := by
            intro equal
            exact distinct.1 (equal ▸ List.mem_map_of_mem mem)
          simpa only [decide_eq_true_eq, same] using different
        rw [put, if_pos same, List.filter_cons_of_pos (by simp), later]
      · rw [put, if_neg same, List.filter_cons_of_neg (by simpa using same), ih distinct.2]

/-- The views with other ids are those that were there, in the same order. -/
theorem filter_put_other (id : UInt32) (v : View) (views : List View) :
    (put id v views).filter (·.id ≠ some id) = views.filter (·.id ≠ some id) := by
  induction views with
  | nil => simp [put]
  | cons w rest ih =>
      by_cases same : w.id = some id
      · rw [put, if_pos same, List.filter_cons_of_neg (by simp),
          List.filter_cons_of_neg (by simpa using same)]
      · rw [put, if_neg same, List.filter_cons_of_pos (by simpa using same),
          List.filter_cons_of_pos (by simpa using same), ih]

/-- A list into which a view was put holds this view and those with other ids. -/
theorem mem_put_iff (distinct : (views.map (·.id)).Nodup) :
    w ∈ put id v views ↔ w = { v with id := some id } ∨ w ∈ views ∧ w.id ≠ some id := by
  have one : (put id v views).filter (·.id = some id) = [{ v with id := some id }] :=
    filter_put_self distinct
  have self : w ∈ put id v views ∧ w.id = some id ↔ w = { v with id := some id } := by
    simpa [List.mem_filter] using congrArg (w ∈ ·) one
  have other : w ∈ put id v views ∧ w.id ≠ some id ↔ w ∈ views ∧ w.id ≠ some id := by
    simpa [List.mem_filter] using congrArg (w ∈ ·) (filter_put_other id v views)
  rw [← self, ← other, ← and_or_left]
  exact (and_iff_left (Decidable.em (w.id = some id))).symm

theorem put_withId (id : UInt32) (v : View) (views : List View) :
    put id { v with id := some id } views = put id v views := by
  induction views with
  | nil => rfl
  | cons w rest ih => rw [put, put, ih]

/-- Putting a view under its id once more changes nothing. -/
theorem put_put (id : UInt32) (v : View) (views : List View) :
    put id v (put id v views) = put id v views := by
  induction views with
  | nil => simp [put]
  | cons w rest ih =>
      by_cases same : w.id = some id
      · rw [put, if_pos same, put, if_pos rfl]
      · rw [put, if_neg same, put, if_neg same, ih]

/-- The views beside a saved one are those that it did not replace, provided that a new id is
an id of no other view. -/
theorem filter_save_other_iff (views : List View) (v : View) :
    ((save views v).filter (·.id ≠ some (idFor views v)) =
        views.filter fun w => v.id = none ∨ w.id ≠ v.id) ↔
      (v.id = none → ∀ w ∈ views, w.id ≠ some (idFor views v)) := by
  rw [save, filter_put_other]
  cases had : v.id with
  | some i =>
      have same : idFor views v = i := by rw [idFor, had, Option.getD_some]
      simp [same]
  | none =>
      have all : (views.filter fun w => (none : Option UInt32) = none ∨ w.id ≠ none) = views := by
        simp
      rw [all, List.filter_eq_self]
      simp

theorem remove?_sublist (removed : remove? id views = some rest) : rest.Sublist views := by
  induction views generalizing rest with
  | nil => exact nomatch removed
  | cons w others ih =>
      rw [remove?] at removed
      by_cases same : w.id = some id
      · rw [if_pos same, Option.some.injEq] at removed
        exact removed ▸ List.sublist_cons_self w others
      · rw [if_neg same, Option.map_eq_some_iff] at removed
        obtain ⟨rest, found, rfl⟩ := removed
        exact (ih found).cons_cons w

theorem WellFormed.sublist (wellFormed : WellFormed views) (sublist : rest.Sublist views) :
    WellFormed rest :=
  ⟨fun v mem => wellFormed.identified v (sublist.subset mem),
    (sublist.map _).nodup wellFormed.distinct⟩

theorem max_eq_ite (a b : UInt32) : max a b = if a ≤ b then b else a := rfl

instance instLawfulOrderMaxId : Std.LawfulOrderMax UInt32 where
  max_eq_or a b := by
    rw [max_eq_ite]
    split
    · exact .inr rfl
    · exact .inl rfl
  max_le_iff a b c := by
    rw [max_eq_ite]
    split
    next le =>
      constructor
      · intro bound
        exact ⟨UInt32.le_trans le bound, bound⟩
      · exact And.right
    next gt =>
      have le : b ≤ a := UInt32.le_of_lt (UInt32.not_le.1 gt)
      constructor
      · intro bound
        exact ⟨bound, UInt32.le_trans le bound⟩
      · exact And.left

theorem le_greatestId (mem : v ∈ views) (has : v.id = some id) :
    ∃ greatest, greatestId? views = some greatest ∧ id ≤ greatest := by
  have listed : id ∈ views.filterMap (·.id) := List.mem_filterMap.2 ⟨v, mem, has⟩
  cases greatest? : greatestId? views with
  | none =>
      rw [greatestId?, List.max?_eq_none_iff] at greatest?
      exact absurd listed (by simp [greatest?])
  | some greatest =>
      rw [greatestId?, List.max?_eq_some_iff] at greatest?
      exact ⟨greatest, rfl, greatest?.2 id listed⟩

theorem greatestId_mem {greatest : UInt32} (found : greatestId? views = some greatest) :
    ∃ v ∈ views, v.id = some greatest := by
  rw [greatestId?, List.max?_eq_some_iff] at found
  exact List.mem_filterMap.1 found.1

/-- The next id is free as long as no view has the greatest id there is. -/
theorem nextId_fresh (below : ∀ w ∈ views, w.id ≠ some 0xffffffff) (mem : v ∈ views) :
    v.id ≠ some (nextId views) := by
  intro has
  obtain ⟨greatest, found, le⟩ := le_greatestId mem has
  obtain ⟨w, memW, hasW⟩ := greatestId_mem found
  have small : greatest ≠ 0xffffffff := by
    rintro rfl
    exact below w memW hasW
  have next : nextId views = greatest + 1 := by simp only [nextId, found]
  have one : (1 : UInt32).toNat = 1 := rfl
  rw [next, UInt32.le_iff_toNat_le, UInt32.toNat_add, one] at le
  have bound : greatest.toNat ≠ 0xffffffff := by
    intro equal
    exact small (UInt32.toNat_inj.1 equal)
  have range := greatest.toNat_lt
  omega

theorem idFor_fresh (below : ∀ w ∈ views, w.id ≠ some 0xffffffff) (new : v.id = none) :
    ∀ w ∈ views, w.id ≠ some (idFor views v) := by
  intro w mem
  rw [idFor, new, Option.getD_none]
  exact nextId_fresh below mem

/-- Whether some view has an id. -/
def Uses (views : List View) (id : UInt32) : Prop := ∃ w ∈ views, w.id = some id

instance (views : List View) (id : UInt32) : Decidable (Uses views id) :=
  inferInstanceAs (Decidable (∃ w ∈ views, w.id = some id))

theorem uses_iff : Uses views id ↔ some id ∈ views.map (·.id) := List.mem_map.symm

/-- A view is put under its id, and no id falls out of use. -/
theorem uses_put_iff {i : UInt32} : Uses (put id v views) i ↔ i = id ∨ Uses views i := by
  rw [uses_iff, uses_iff, map_id_put]
  split
  next used =>
    constructor
    · exact .inr
    · rintro (rfl | uses)
      · exact used
      · exact uses
  next => simp [or_comm]

/-- Only the id that a view is removed under can fall out of use. -/
theorem Uses.remove? {i : UInt32} (uses : Uses views i) (other : i ≠ id)
    (removed : remove? id views = some rest) : Uses rest i := by
  induction views generalizing rest with
  | nil => exact nomatch removed
  | cons w others ih =>
      obtain ⟨u, mem, has⟩ := uses
      rw [SavedViews.remove?] at removed
      by_cases same : w.id = some id
      · rw [if_pos same, Option.some.injEq] at removed
        obtain rfl | mem := List.mem_cons.1 mem
        · exact absurd (Option.some.inj (has.symm.trans same)) other
        · exact ⟨u, removed ▸ mem, has⟩
      · rw [if_neg same, Option.map_eq_some_iff] at removed
        obtain ⟨rest, found, rfl⟩ := removed
        obtain rfl | mem := List.mem_cons.1 mem
        · exact ⟨u, List.mem_cons_self, has⟩
        · obtain ⟨u, mem, has⟩ := ih ⟨u, mem, has⟩ found
          exact ⟨u, List.mem_cons_of_mem w mem, has⟩

/-- One past the greatest id in use is the only id above those in use that is one or follows
one of them. -/
theorem succ_eq_iff {used : UInt32 → Prop} {greatest : UInt32} (small : greatest ≠ 0xffffffff)
    (uses : used greatest) (least : ∀ i, used i → i ≤ greatest) :
    greatest + 1 = id ↔ (∀ i, used i → i < id) ∧ (id = 1 ∨ used (id - 1)) := by
  constructor
  · rintro rfl
    refine ⟨?_, .inr ?_⟩
    · intro i usedToo
      have le := least i usedToo
      grind
    · have back : greatest + 1 - 1 = greatest := by grind
      rwa [back]
  · rintro ⟨above, rfl | before⟩
    · have lt := above greatest uses
      grind
    · have lt := above greatest uses
      have le := least (id - 1) before
      grind

/-- The next id is the only one above all ids in use that is one or follows an id in use. -/
theorem nextId_eq_iff (below : ¬ Uses views 0xffffffff) :
    nextId views = id ↔ (∀ i, Uses views i → i < id) ∧ (id = 1 ∨ Uses views (id - 1)) := by
  cases found : greatestId? views with
  | none =>
      have unused : ∀ i, ¬ Uses views i := by
        rintro i ⟨w, mem, has⟩
        obtain ⟨greatest, some_, -⟩ := le_greatestId mem has
        cases found.symm.trans some_
      have next : nextId views = 1 := by simp only [nextId, found]
      simp only [next, unused, false_imp_iff, implies_true, or_false, true_and, @eq_comm _ id]
  | some greatest =>
      have small : greatest ≠ 0xffffffff := by
        rintro rfl
        exact below (greatestId_mem found)
      have least : ∀ i, Uses views i → i ≤ greatest := by
        rintro i ⟨w, mem, has⟩
        obtain ⟨_, same, le⟩ := le_greatestId mem has
        rwa [Option.some.inj (found.symm.trans same)]
      have next : nextId views = greatest + 1 := by simp only [nextId, found]
      rw [next]
      exact succ_eq_iff small (greatestId_mem found) least

variable {before after : List View}

theorem uses_cons_iff : Uses (w :: rest) id ↔ w.id = some id ∨ Uses rest id := by
  rw [uses_iff, uses_iff, List.map_cons, List.mem_cons, eq_comm]

theorem Uses.exists_first (uses : Uses views id) :
    ∃ before w after, views = before ++ w :: after ∧ w.id = some id ∧ ¬ Uses before id := by
  induction views with
  | nil => simp [Uses] at uses
  | cons u rest ih =>
      by_cases same : u.id = some id
      · exact ⟨[], u, rest, rfl, same, by simp [Uses]⟩
      · obtain ⟨before, w, after, rfl, has, unused⟩ := ih ((uses_cons_iff.1 uses).resolve_left same)
        refine ⟨u :: before, w, after, rfl, has, ?_⟩
        rw [uses_cons_iff]
        exact not_or.2 ⟨same, unused⟩

theorem put_of_unused (unused : ¬ Uses views id) (v : View) :
    put id v views = views ++ [{ v with id := some id }] := by
  induction views with
  | nil => rfl
  | cons w rest ih =>
      obtain ⟨other, later⟩ := not_or.1 (mt uses_cons_iff.2 unused)
      rw [put, if_neg other, ih later, List.cons_append]

theorem put_of_first (split : views = before ++ w :: after) (has : w.id = some id)
    (unused : ¬ Uses before id) (v : View) :
    put id v views = before ++ { v with id := some id } :: after := by
  subst split
  induction before with
  | nil => rw [List.nil_append, put, if_pos has, List.nil_append]
  | cons u rest ih =>
      obtain ⟨other, later⟩ := not_or.1 (mt uses_cons_iff.2 unused)
      rw [List.cons_append, put, if_neg other, ih later, List.cons_append]

theorem remove?_of_unused (unused : ¬ Uses views id) : remove? id views = none := by
  induction views with
  | nil => rfl
  | cons w rest ih =>
      obtain ⟨other, later⟩ := not_or.1 (mt uses_cons_iff.2 unused)
      rw [SavedViews.remove?, if_neg other, ih later, Option.map_none]

theorem remove?_of_first (split : views = before ++ w :: after) (has : w.id = some id)
    (unused : ¬ Uses before id) : remove? id views = some (before ++ after) := by
  subst split
  induction before with
  | nil => rw [List.nil_append, SavedViews.remove?, if_pos has, List.nil_append]
  | cons u rest ih =>
      obtain ⟨other, later⟩ := not_or.1 (mt uses_cons_iff.2 unused)
      rw [List.cons_append, SavedViews.remove?, if_neg other, ih later, Option.map_some,
        List.cons_append]

end TableView.SavedViews
