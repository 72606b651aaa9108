/-!
# Sorting routines

A comparison orders some items if it agrees with an order of all items there
(`OrdersAmong`). It then agrees with the comparison of ranks, too, so it can be
computed whether it does.

A routine that sorts by a comparison can be relied on only where the comparison
orders the items. There it sorts them stably, as merge sort does. Elsewhere it may
arrange them in any way, or give no result at all (`SortRoutine`).
-/

namespace TableView

/-- Sorting depends only on how the items of the list compare. -/
theorem mergeSort_congr {l : List α} {r s : α → α → Bool}
    (alike : ∀ a ∈ l, ∀ b ∈ l, r a b = s a b) : l.mergeSort r = l.mergeSort s := by
  have same : (l.mergeSort r).map id = (l.map id).mergeSort s := List.map_mergeSort alike
  rwa [List.map_id, List.map_id] at same

/-- More items of a list are of the wider of two kinds if one is of that kind only. -/
theorem countP_lt_of_imp {l : List α} {p q : α → Bool} {a : α}
    (wider : ∀ b ∈ l, p b = true → q b = true) (mem : a ∈ l) (wide : q a = true)
    (narrow : p a = false) : l.countP p < l.countP q := by
  induction l with
  | nil => cases mem
  | cons b rest ih =>
      obtain ⟨here, later⟩ := List.forall_mem_cons.1 wider
      rcases List.mem_cons.1 mem with rfl | mem
      · rw [List.countP_cons_of_neg (by simp [narrow]), List.countP_cons_of_pos wide]
        exact Nat.lt_succ_of_le (List.countP_mono_left later)
      · have fewer := ih later mem
        by_cases both : p b = true
        · rw [List.countP_cons_of_pos both, List.countP_cons_of_pos (here both)]
          exact Nat.succ_lt_succ fewer
        · rw [List.countP_cons_of_neg both, List.countP_cons]
          exact Nat.lt_add_right _ fewer

/-- Whether a comparison is an order among some items: it agrees with an order of all items
there. -/
def OrdersAmong (l : List α) (cmp : α → α → Ordering) : Prop :=
  ∃ order : α → α → Ordering, Std.TransCmp order ∧ ∀ a ∈ l, ∀ b ∈ l, cmp a b = order a b

namespace OrdersAmong

variable {l : List α} {cmp first second : α → α → Ordering} {a b c : α}

theorem indifferent (l : List α) : OrdersAmong l fun _ _ => .eq :=
  ⟨fun _ _ => .eq, { eq_swap := rfl, isLE_trans := fun _ _ => rfl }, fun _ _ _ _ => rfl⟩

/-- One order decides, and another where the first does not. -/
theorem lex (h : OrdersAmong l first) (k : OrdersAmong l second) :
    OrdersAmong l fun a b => (first a b).then (second a b) := by
  obtain ⟨order, _, agree⟩ := h
  obtain ⟨next, _, agreeNext⟩ := k
  refine ⟨compareLex order next, inferInstance, ?_⟩
  intro a ha b hb
  show (first a b).then (second a b) = (order a b).then (next a b)
  rw [agree a ha b hb, agreeNext a ha b hb]

theorem mono (h : OrdersAmong l cmp) {part : List α} (subset : part ⊆ l) :
    OrdersAmong part cmp := by
  obtain ⟨order, total, agree⟩ := h
  exact ⟨order, total, fun a ha b hb => agree a (subset ha) b (subset hb)⟩

theorem swap (h : OrdersAmong l cmp) (ha : a ∈ l) (hb : b ∈ l) : cmp a b = (cmp b a).swap := by
  obtain ⟨order, _, agree⟩ := h
  rw [agree a ha b hb, agree b hb a ha]
  exact Std.OrientedCmp.eq_swap

theorem refl (h : OrdersAmong l cmp) (ha : a ∈ l) : cmp a a = .eq := by
  obtain ⟨order, _, agree⟩ := h
  rw [agree a ha a ha]
  exact Std.ReflCmp.compare_self

theorem trans (h : OrdersAmong l cmp) (ha : a ∈ l) (hb : b ∈ l) (hc : c ∈ l)
    (ab : (cmp a b).isLE) (bc : (cmp b c).isLE) : (cmp a c).isLE := by
  obtain ⟨order, _, agree⟩ := h
  rw [agree a ha b hb] at ab
  rw [agree b hb c hc] at bc
  rw [agree a ha c hc]
  exact Std.TransCmp.isLE_trans ab bc

/-- Items that come before each other tie. -/
theorem eq_of_isLE (h : OrdersAmong l cmp) (ha : a ∈ l) (hb : b ∈ l) (ab : (cmp a b).isLE)
    (ba : (cmp b a).isLE) : cmp a b = .eq := by
  rw [h.swap hb ha] at ba
  exact Ordering.eq_eq_of_isLE_of_isLE_swap ab ba

theorem eq_symm (h : OrdersAmong l cmp) (ha : a ∈ l) (hb : b ∈ l) (tied : cmp a b = .eq) :
    cmp b a = .eq := by
  rw [h.swap hb ha, tied, Ordering.swap_eq]

theorem eq_trans (h : OrdersAmong l cmp) (ha : a ∈ l) (hb : b ∈ l) (hc : c ∈ l)
    (ab : cmp a b = .eq) (bc : cmp b c = .eq) : cmp a c = .eq := by
  have ba := h.eq_symm ha hb ab
  have cb := h.eq_symm hb hc bc
  have upTo := h.trans ha hb hc (Ordering.isLE_of_eq_eq ab) (Ordering.isLE_of_eq_eq bc)
  have back := h.trans hc hb ha (Ordering.isLE_of_eq_eq cb) (Ordering.isLE_of_eq_eq ba)
  exact h.eq_of_isLE ha hc upTo back

/-- Sorting by an order is sorting by a total and transitive relation. -/
theorem exists_mergeSort_eq (h : OrdersAmong l cmp) : ∃ le : α → α → Bool,
    (∀ a b c, le a b = true → le b c = true → le a c = true) ∧
      (∀ a b, (le a b || le b a) = true) ∧ (∀ a ∈ l, ∀ b ∈ l, le a b = (cmp a b).isLE) ∧
      (l.mergeSort fun a b => cmp a b != .gt) = l.mergeSort le := by
  obtain ⟨order, _, agree⟩ := h
  refine ⟨fun a b => (order a b).isLE, fun _ _ _ => Std.TransCmp.isLE_trans, ?_, ?_, ?_⟩
  · intro a b
    have swapped : order b a = (order a b).swap := Std.OrientedCmp.eq_swap
    show ((order a b).isLE || (order b a).isLE) = true
    rw [swapped]
    cases order a b <;> rfl
  · intro a ha b hb
    rw [agree a ha b hb]
  · refine mergeSort_congr ?_
    intro a ha b hb
    rw [agree a ha b hb]
    exact Ordering.isLE_eq_not_beq_gt.symm

theorem pairwise_mergeSort (h : OrdersAmong l cmp) :
    (l.mergeSort fun a b => cmp a b != .gt).Pairwise fun a b => (cmp a b).isLE := by
  obtain ⟨le, trans, total, agree, sorts⟩ := h.exists_mergeSort_eq
  rw [sorts]
  refine (List.pairwise_mergeSort trans total l).imp_of_mem ?_
  intro a b ha hb inOrder
  rwa [← agree a (List.mem_mergeSort.1 ha) b (List.mem_mergeSort.1 hb)]

/-- What comes before one of two items that tie comes before the other. -/
theorem lt_of_lt_of_isLE (h : OrdersAmong l cmp) (ha : a ∈ l) (hb : b ∈ l) (hc : c ∈ l)
    (ab : cmp a b = .lt) (bc : (cmp b c).isLE) : cmp a c = .lt := by
  obtain ⟨order, _, agree⟩ := h
  rw [agree a ha b hb] at ab
  rw [agree b hb c hc] at bc
  rw [agree a ha c hc]
  exact Std.TransCmp.lt_of_lt_of_isLE ab bc

end OrdersAmong

/-- How many items come before one. -/
def rankAmong (l : List α) (cmp : α → α → Ordering) (a : α) : Nat :=
  l.countP fun b => cmp b a == .lt

namespace OrdersAmong

variable {l : List α} {cmp : α → α → Ordering} {a b : α}

theorem rankAmong_lt (h : OrdersAmong l cmp) (ha : a ∈ l) (hb : b ∈ l) (before : cmp a b = .lt) :
    rankAmong l cmp a < rankAmong l cmp b := by
  refine countP_lt_of_imp ?_ ha (by simp [before]) (by simp [h.refl ha])
  intro c hc earlier
  rw [beq_iff_eq] at earlier ⊢
  exact h.lt_of_lt_of_isLE hc ha hb earlier (Ordering.isLE_of_eq_lt before)

theorem rankAmong_eq (h : OrdersAmong l cmp) (ha : a ∈ l) (hb : b ∈ l) (tied : cmp a b = .eq) :
    rankAmong l cmp a = rankAmong l cmp b := by
  refine List.countP_congr ?_
  intro c hc
  rw [beq_iff_eq, beq_iff_eq]
  constructor
  · intro earlier
    exact h.lt_of_lt_of_isLE hc ha hb earlier (Ordering.isLE_of_eq_eq tied)
  · intro earlier
    exact h.lt_of_lt_of_isLE hc hb ha earlier (Ordering.isLE_of_eq_eq (h.eq_symm ha hb tied))

theorem compare_rankAmong (h : OrdersAmong l cmp) (ha : a ∈ l) (hb : b ∈ l) :
    cmp a b = compare (rankAmong l cmp a) (rankAmong l cmp b) := by
  cases order : cmp a b with
  | lt => exact (Nat.compare_eq_lt.2 (h.rankAmong_lt ha hb order)).symm
  | eq => exact (Nat.compare_eq_eq.2 (h.rankAmong_eq ha hb order)).symm
  | gt =>
      have swapped : cmp b a = .lt := by rw [h.swap hb ha, order, Ordering.swap_gt]
      exact (Nat.compare_eq_gt.2 (h.rankAmong_lt hb ha swapped)).symm

end OrdersAmong

/-- Whether items compare as the ranks that they are given. -/
def agreesWithRanks (cmp : α → α → Ordering) (ranked : List (α × Nat)) : Bool :=
  ranked.all fun p => ranked.all fun q => cmp p.1 q.1 == compare p.2 q.2

/-- A comparison orders items exactly if they compare as their ranks do. -/
theorem agreesWithRanks_iff {l : List α} {cmp : α → α → Ordering} :
    agreesWithRanks cmp (l.map fun a => (a, rankAmong l cmp a)) = true ↔ OrdersAmong l cmp := by
  simp only [agreesWithRanks, List.all_map, List.all_eq_true, Function.comp_apply, beq_iff_eq]
  constructor
  · intro agree
    exact ⟨compareOn (rankAmong l cmp), inferInstance, agree⟩
  · intro h a ha b hb
    exact h.compare_rankAmong ha hb

instance (l : List α) (cmp : α → α → Ordering) : Decidable (OrdersAmong l cmp) :=
  decidable_of_iff _ agreesWithRanks_iff

/-- A routine that sorts by a comparison. It keeps all items, and where the comparison orders
them it sorts them stably. Where it does not, there need not be a result. -/
structure SortRoutine (α : Type u) where
  run : (α → α → Ordering) → List α → Option (List α)
  perm : ∀ {cmp items sorted}, run cmp items = some sorted → sorted.Perm items
  stable : ∀ {cmp items}, OrdersAmong items cmp →
    run cmp items = some (items.mergeSort fun a b => cmp a b != .gt)

namespace SortRoutine

/-- Merge sort, which always gives a result. -/
def merge : SortRoutine α where
  run cmp items := some (items.mergeSort fun a b => cmp a b != .gt)
  perm sorts := Option.some.inj sorts ▸ List.mergeSort_perm _ _
  stable _ := rfl

/-- The routine that gives a result only where the comparison orders the items. -/
def strict : SortRoutine α where
  run cmp items :=
    if OrdersAmong items cmp then some (items.mergeSort fun a b => cmp a b != .gt) else none
  perm sorts := by
    obtain ⟨-, sorts⟩ := Option.ite_none_right_eq_some.1 sorts
    exact Option.some.inj sorts ▸ List.mergeSort_perm _ _
  stable orders := if_pos orders

/-- All routines give a result exactly where the comparison orders the items. -/
theorem exists_run_iff {cmp : α → α → Ordering} {items : List α} :
    (∀ routine : SortRoutine α, ∃ sorted, routine.run cmp items = some sorted) ↔
      OrdersAmong items cmp := by
  constructor
  · intro always
    obtain ⟨sorted, sorts⟩ := always strict
    exact (Option.ite_none_right_eq_some.1 sorts).1
  · intro orders routine
    exact ⟨_, routine.stable orders⟩

end SortRoutine

end TableView
