import Mathlib.Data.List.Basic
import TableView.Proofs.Sort.Stable

/-!
# Sorted lists by their ties

A list is another one sorted if it stands in order and, for every item, the items that tie
with it are the same in both lists, in the same order (`Sorts`). This says without numbers
which of the items that tie come first, and it too determines the list. So it can be shown of
lists that no single sort has put in order: a part of a sorted list, and a list that is sorted
by one order and then by another.
-/

namespace TableView

/-- Whether an item ties with another one. -/
def tiesWith (cmp : α → α → Ordering) (a b : α) : Bool := cmp a b == .eq

theorem tiesWith_iff {cmp : α → α → Ordering} {a b : α} :
    tiesWith cmp a b = true ↔ cmp a b = .eq := beq_iff_eq

/-- Whether a list is another one sorted: it has the same items in order, and items that tie come
as they came. -/
structure Sorts (cmp : α → α → Ordering) (l sorted : List α) : Prop where
  perm : sorted.Perm l
  inOrder : sorted.Pairwise fun a b => (cmp a b).isLE
  ties : ∀ a ∈ l, sorted.filter (tiesWith cmp a) = l.filter (tiesWith cmp a)

variable {cmp first second : α → α → Ordering} {l m n : List α}

namespace OrdersAmong

/-- Items that are in order among themselves stay as they are when the list is sorted. -/
theorem filter_mergeSort (h : OrdersAmong l cmp) {p : α → Bool}
    (inOrder : (l.filter p).Pairwise fun a b => (cmp a b).isLE) :
    (l.mergeSort fun a b => cmp a b != .gt).filter p = l.filter p := by
  obtain ⟨le, trans, total, agree, sorts⟩ := h.exists_mergeSort_eq
  have sorted : (l.filter p).Pairwise fun a b => le a b = true := by
    refine inOrder.imp_of_mem ?_
    intro a b ha hb upTo
    rwa [agree a (List.mem_of_mem_filter ha) b (List.mem_of_mem_filter hb)]
  have kept := (List.sublist_mergeSort trans total sorted List.filter_sublist).filter p
  simp only [List.filter_filter, Bool.and_self] at kept
  rw [sorts]
  exact (kept.eq_of_length ((List.mergeSort_perm l le).filter p).length_eq.symm).symm

theorem sorts_mergeSort (h : OrdersAmong l cmp) :
    Sorts cmp l (l.mergeSort fun a b => cmp a b != .gt) := by
  refine ⟨List.mergeSort_perm l _, h.pairwise_mergeSort, ?_⟩
  intro a ha
  refine h.filter_mergeSort ?_
  refine List.pairwise_of_forall_mem_list ?_
  intro b hb c hc
  obtain ⟨knownB, tiedB⟩ := List.mem_filter.1 hb
  obtain ⟨knownC, tiedC⟩ := List.mem_filter.1 hc
  have back := h.eq_symm ha knownB (tiesWith_iff.1 tiedB)
  exact Ordering.isLE_of_eq_eq (h.eq_trans knownB ha knownC back (tiesWith_iff.1 tiedC))

/-- The first of items in order comes before all of them. -/
theorem isLE_head {a b : α} (h : OrdersAmong l cmp) (mem : a ∈ l)
    (inOrder : (a :: m).Pairwise fun a b => (cmp a b).isLE) (later : b ∈ a :: m) :
    (cmp a b).isLE := by
  obtain rfl | later := List.mem_cons.1 later
  · exact Ordering.isLE_of_eq_eq (h.refl mem)
  · exact List.rel_of_pairwise_cons inOrder later

/-- Lists of the same items in order are equal if their ties are. -/
theorem eq_of_ties (h : OrdersAmong m cmp) (perm : n.Perm m)
    (inOrderN : n.Pairwise fun a b => (cmp a b).isLE)
    (inOrderM : m.Pairwise fun a b => (cmp a b).isLE)
    (ties : ∀ a ∈ m, n.filter (tiesWith cmp a) = m.filter (tiesWith cmp a)) : n = m := by
  induction m generalizing n with
  | nil => exact perm.eq_nil
  | cons a rest ih =>
      match n with
      | [] => exact perm.nil_eq
      | b :: others =>
          have memA : a ∈ a :: rest := List.mem_cons_self
          have memB : b ∈ a :: rest := perm.subset List.mem_cons_self
          have upTo := h.isLE_head memA inOrderM memB
          have back := h.isLE_head memB inOrderN (perm.symm.subset memA)
          have tied : cmp a b = .eq := h.eq_of_isLE memA memB upTo back
          -- Both heads are the first items that tie with `a`.
          have heads := ties a memA
          rw [List.filter_cons_of_pos (tiesWith_iff.2 tied),
            List.filter_cons_of_pos (tiesWith_iff.2 (h.refl memA))] at heads
          obtain ⟨rfl, -⟩ := List.cons.inj heads
          congr 1
          refine ih (h.mono (List.subset_cons_self _ _)) perm.cons_inv inOrderN.of_cons
            inOrderM.of_cons ?_
          intro c hc
          have same := ties c (List.mem_cons_of_mem _ hc)
          rw [List.filter_cons, List.filter_cons] at same
          split at same
          · exact (List.cons.inj same).2
          · exact same

theorem sorts_unique (h : OrdersAmong l cmp) (hm : Sorts cmp l m) (hn : Sorts cmp l n) : m = n := by
  refine (h.mono hn.perm.subset).eq_of_ties (hm.perm.trans hn.perm.symm) hm.inOrder hn.inOrder ?_
  intro a ha
  rw [hm.ties a (hn.perm.subset ha), hn.ties a (hn.perm.subset ha)]

end OrdersAmong

namespace Sorts

theorem filter (h : Sorts cmp l m) (p : α → Bool) : Sorts cmp (l.filter p) (m.filter p) := by
  refine ⟨h.perm.filter p, h.inOrder.filter p, ?_⟩
  intro a ha
  rw [List.filter_comm, h.ties a (List.mem_of_mem_filter ha), List.filter_comm]

/-- A list that is sorted by one order and then by another is sorted by both, the later one
deciding first. -/
theorem lex (order : OrdersAmong l first) (inner : Sorts second l m) (outer : Sorts first m n) :
    Sorts (fun a b => (first a b).then (second a b)) l n := by
  have both : ∀ (a : α) (k : List α),
      k.filter (tiesWith (fun a b => (first a b).then (second a b)) a) =
        (k.filter (tiesWith first a)).filter (tiesWith second a) := by
    intro a k
    rw [List.filter_filter]
    refine List.filter_congr ?_
    intro b _
    rw [Bool.eq_iff_iff, Bool.and_eq_true, tiesWith_iff, tiesWith_iff, tiesWith_iff,
      Ordering.then_eq_eq, and_comm]
  refine ⟨outer.perm.trans inner.perm, ?_, ?_⟩
  · rw [List.pairwise_iff_forall_sublist]
    intro a b pair
    have upTo := List.pairwise_iff_forall_sublist.1 outer.inOrder pair
    rw [Ordering.isLE_then_iff_and]
    refine ⟨upTo, ?_⟩
    cases tied : first a b with
    | lt => exact .inl rfl
    | gt => rw [tied] at upTo; cases upTo
    | eq =>
        -- What ties in the outer sort stands as the inner sort has left it.
        have memA : a ∈ m := outer.perm.subset (pair.subset List.mem_cons_self)
        have level : first a a = .eq := order.refl (inner.perm.subset memA)
        have left := pair.filter (tiesWith first a)
        rw [outer.ties a memA, List.filter_cons_of_pos (tiesWith_iff.2 level),
          List.filter_cons_of_pos (tiesWith_iff.2 tied), List.filter_nil] at left
        exact .inr (List.pairwise_iff_forall_sublist.1 inner.inOrder
          (left.trans List.filter_sublist))
  · intro a ha
    rw [both, both, outer.ties a (inner.perm.symm.subset ha), List.filter_comm, inner.ties a ha,
      List.filter_comm]

end Sorts

namespace SortKey

variable {keys : List SortKey} {records : List Record}

theorem sorts_sort (fits : ∀ k ∈ keys, Commensurable records k.columnKey) :
    Sorts (compareByAll keys) records (sort keys records) := by
  rw [sort_eq_mergeSort]
  exact (ordersAmong_all fits).sorts_mergeSort

/-- Some of the records are sorted as they are among all of them. -/
theorem sort_filter (fits : ∀ k ∈ keys, Commensurable records k.columnKey) (p : Record → Bool) :
    sort keys (records.filter p) = (sort keys records).filter p := by
  have fitsPart : ∀ k ∈ keys, Commensurable (records.filter p) k.columnKey := by
    intro k mem
    exact (fits k mem).mono List.filter_sublist.subset
  exact (ordersAmong_all fitsPart).sorts_unique (sorts_sort fitsPart) ((sorts_sort fits).filter p)

end SortKey

end TableView
