import TableView.Proofs.Sort.Order

/-!
# Sorting is the only stable arrangement

Items of a list are told apart by their places in it, also where they are equal. An
arrangement of the list is then a list of numbered items, and by an order there is exactly
one in which nothing comes before what is less and items that tie keep their places
(`StablyOrders`). Sorted records are that arrangement, so sorting them again moves nothing.
-/

namespace TableView

/-- Whether numbered items arrange a list by a comparison: they are the items of the list with
their places in it, no item comes before a lesser one, and items that tie stand in the order
of their places. -/
structure StablyOrders (cmp : α → α → Ordering) (l : List α) (arranged : List (α × Nat)) :
    Prop where
  perm : arranged.Perm l.zipIdx
  sorted : arranged.Pairwise fun a b => (cmp a.1 b.1).isLE
  stable : arranged.Pairwise fun a b => cmp a.1 b.1 = .eq → a.2 < b.2

/-- The comparison of numbered items in which their numbers break ties. -/
def compareNumbered (cmp : α → α → Ordering) (a b : α × Nat) : Ordering :=
  (cmp a.1 b.1).then (compare a.2 b.2)

/-- No two numbered items of a list have one number. -/
theorem pairwise_snd_ne {l : List α} {arranged : List (α × Nat)} (perm : arranged.Perm l.zipIdx) :
    arranged.Pairwise fun a b => a.2 ≠ b.2 := by
  have distinct : (arranged.map (·.2)).Nodup := by
    rw [(perm.map _).nodup_iff, List.zipIdx_map_snd]
    exact List.nodup_range'
  exact List.pairwise_map.1 distinct

/-- Items arrange a list exactly if numbers break their ties. -/
theorem stablyOrders_iff {cmp : α → α → Ordering} {l : List α} {arranged : List (α × Nat)} :
    StablyOrders cmp l arranged ↔ arranged.Perm l.zipIdx ∧
      arranged.Pairwise fun a b => (compareNumbered cmp a b).isLE := by
  constructor
  · rintro ⟨perm, sorted, stable⟩
    refine ⟨perm, sorted.imp₂ ?_ stable⟩
    intro a b upTo later
    rw [compareNumbered, Ordering.isLE_then_iff_and]
    refine ⟨upTo, ?_⟩
    by_cases tied : cmp a.1 b.1 = .eq
    · exact .inr (Ordering.isLE_of_eq_lt (Nat.compare_eq_lt.2 (later tied)))
    · exact .inl (Ordering.isLE_iff_eq_lt_or_eq_eq.1 upTo |>.resolve_right tied)
  · rintro ⟨perm, inOrder⟩
    refine ⟨perm, inOrder.imp Ordering.isLE_left_of_isLE_then, ?_⟩
    refine inOrder.imp₂ ?_ (pairwise_snd_ne perm)
    intro a b upTo different tied
    rw [compareNumbered, tied, Ordering.eq_then, Nat.isLE_compare] at upTo
    exact Nat.lt_of_le_of_ne upTo different

namespace OrdersAmong

variable {l : List α} {cmp : α → α → Ordering}

/-- What orders the images of some items orders these. -/
theorem comap {m : List β} {f : β → α} (h : OrdersAmong l cmp) (maps : ∀ b ∈ m, f b ∈ l) :
    OrdersAmong m fun a b => cmp (f a) (f b) := by
  obtain ⟨order, _, agree⟩ := h
  refine ⟨fun a b => order (f a) (f b), ?_, fun a ha b hb => agree _ (maps a ha) _ (maps b hb)⟩
  exact { eq_swap := Std.OrientedCmp.eq_swap, isLE_trans := Std.TransCmp.isLE_trans }

theorem numbered (h : OrdersAmong l cmp) : OrdersAmong l.zipIdx (compareNumbered cmp) := by
  have items : ∀ a ∈ l.zipIdx, a.1 ∈ l := by
    intro a member
    exact List.mem_of_getElem? (List.mem_zipIdx_iff_getElem?.1 member)
  have numbers : OrdersAmong l.zipIdx (compareOn Prod.snd) := ⟨_, inferInstance, fun _ _ _ _ => rfl⟩
  exact (h.comap items).lex numbers

/-- By an order a list has only one stable arrangement. -/
theorem stablyOrders_unique {first second : List (α × Nat)} (h : OrdersAmong l cmp)
    (hf : StablyOrders cmp l first) (hs : StablyOrders cmp l second) : first = second := by
  obtain ⟨permF, inOrderF⟩ := stablyOrders_iff.1 hf
  obtain ⟨permS, inOrderS⟩ := stablyOrders_iff.1 hs
  refine List.Perm.eq_of_pairwise ?_ inOrderF inOrderS (permF.trans permS.symm)
  intro a b ha hb ab ba
  have memA := permF.subset ha
  have memB := permS.subset hb
  have tied := h.numbered.eq_of_isLE memA memB ab ba
  -- Items of one number stand in one place of the list.
  have number : a.2 = b.2 := Nat.compare_eq_eq.1 (Ordering.then_eq_eq.1 tied).2
  have placeA := List.mem_zipIdx_iff_getElem?.1 memA
  rw [number, List.mem_zipIdx_iff_getElem?.1 memB, Option.some.injEq] at placeA
  exact Prod.ext placeA.symm number

/-- Sorting numbered items by an order sorts the items stably. -/
theorem exists_stablyOrders (h : OrdersAmong l cmp) : ∃ arranged, StablyOrders cmp l arranged ∧
    arranged.map (·.1) = l.mergeSort fun a b => cmp a b != .gt := by
  refine ⟨l.zipIdx.mergeSort fun a b => compareNumbered cmp a b != .gt, ?_, ?_⟩
  · exact stablyOrders_iff.2 ⟨List.mergeSort_perm _ _, h.numbered.pairwise_mergeSort⟩
  · refine Eq.trans (congrArg _ (mergeSort_congr ?_)) List.mergeSort_zipIdx
    intro a ha b hb
    have swapped := h.swap (List.fst_mem_of_mem_zipIdx hb) (List.fst_mem_of_mem_zipIdx ha)
    rw [List.zipIdxLE, swapped, compareNumbered]
    cases cmp a.1 b.1 with
    | lt => rfl
    | gt => rfl
    | eq =>
        rw [Ordering.eq_then]
        exact Bool.eq_iff_iff.2 (by simp [Nat.compare_ne_gt])

end OrdersAmong

namespace SortKey

variable {keys : List SortKey} {records : List Record}

/-- Without keys all records tie, and sorting them would move nothing either. -/
theorem sort_eq_mergeSort (keys : List SortKey) (records : List Record) :
    sort keys records = records.mergeSort fun a b => compareByAll keys a b != .gt := by
  cases keys with
  | nil => exact (List.mergeSort_of_pairwise (List.pairwise_of_forall fun _ _ => rfl)).symm
  | cons k rest => rfl

/-- Sorting puts records in the order of the keys, records that tie as they stood in the list,
provided that the values of every field are measured on one scale. No other arrangement does,
so sorting sorted records changes nothing, and without keys nothing moves at all. -/
theorem sort_stablyOrders (keys : List SortKey) (records : List Record)
    (fits : ∀ k ∈ keys, Commensurable records k.columnKey) :
    (sort keys records).Perm records ∧
      (sort keys records).Pairwise (fun a b => (compareByAll keys a b).isLE) ∧
      (∃ arranged, StablyOrders (compareByAll keys) records arranged ∧
        arranged.map (·.1) = sort keys records ∧
        ∀ other, StablyOrders (compareByAll keys) records other → other = arranged) ∧
      sort keys (sort keys records) = sort keys records ∧ sort [] records = records := by
  have order : OrdersAmong records (compareByAll keys) := ordersAmong_all fits
  have sorted := sort_pairwise fits
  refine ⟨sort_perm keys records, sorted, ?_, ?_, sort_nil records⟩
  · obtain ⟨arranged, stably, items⟩ := order.exists_stablyOrders
    refine ⟨arranged, stably, items.trans (sort_eq_mergeSort keys records).symm, ?_⟩
    intro other stablyToo
    exact order.stablyOrders_unique stablyToo stably
  · rw [sort_eq_mergeSort keys (sort keys records)]
    refine List.mergeSort_of_pairwise (sorted.imp ?_)
    intro a b upTo
    rwa [Ordering.isLE_eq_not_beq_gt] at upTo

/-- Four records of which the second and the fourth wait equally long, one by a duration and
one by a number, and the third has no value. -/
theorem sort_stablyOrders_waits :
    let wait (id : String) (v : Value) : Record := (Record.empty id).set "wait" v
    let keys : List SortKey := [⟨"wait", .descending⟩]
    let records := [wait "1" (.number (.ofInt 10)), wait "2" (.duration 90), Record.empty "3",
      wait "4" (.number (.ofInt 90))]
    (∀ k ∈ keys, Commensurable records k.columnKey) ∧
      (sort keys records).map (·.id) = ["2", "4", "1", "3"] ∧
      (sort keys records).Perm records ∧
      (sort keys records).Pairwise (fun a b => (compareByAll keys a b).isLE) ∧
      sort keys (sort keys records) = sort keys records := by
  intro wait keys records
  have fits : ∀ k ∈ keys, Commensurable records k.columnKey := by
    refine List.forall_mem_singleton.2 (.inr ?_)
    intro r known seconds value
    have short : ∀ r ∈ records, ∀ d, r.value "wait" = .duration d → d = 90 := by
      simp [records, wait, Record.value, eq_comm]
    rw [short r known seconds value]
    decide
  obtain ⟨perm, sorted, ⟨arranged, -, items, only⟩, again, -⟩ :=
    sort_stablyOrders keys records fits
  -- There is one such arrangement, so it is enough to show one.
  have shown : StablyOrders (compareByAll keys) records [(wait "2" (.duration 90), 1),
      (wait "4" (.number (.ofInt 90)), 3), (wait "1" (.number (.ofInt 10)), 0),
      (Record.empty "3", 2)] :=
    ⟨by decide +kernel, by decide +kernel, by decide +kernel⟩
  refine ⟨fits, ?_, perm, sorted, again⟩
  rw [← items, ← only _ shown]
  rfl

end SortKey

end TableView
