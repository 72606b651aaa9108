import Mathlib.Data.List.SplitBy
import TableView.Proofs.Sort.Ties

/-!
# Sorting the other way round

A sorted list falls into runs of items that tie (`tieRuns`), and items of different runs are
strictly in order. So a list that is sorted by one order and then by another is sorted the other
way round by turning the order of its runs, each of them staying as it is
(`Sorts.reverse_tieRuns`). Blank values are not part of this: they come last in both directions,
in the order of the keys that follow.
-/

namespace TableView

/-- The longest runs of neighbours that tie. -/
def tieRuns (cmp : α → α → Ordering) (l : List α) : List (List α) := l.splitBy (tiesWith cmp)

variable {cmp first second : α → α → Ordering} {l m run : List α} {a b : α}

@[simp] theorem flatten_tieRuns (cmp : α → α → Ordering) (l : List α) :
    (tieRuns cmp l).flatten = l := List.flatten_splitBy _ l

theorem mem_of_mem_tieRuns (mem : run ∈ tieRuns cmp l) (ha : a ∈ run) : a ∈ l := by
  rw [← flatten_tieRuns cmp l]
  exact List.mem_flatten.2 ⟨run, mem, ha⟩

namespace OrdersAmong

/-- The first run of a sorted list holds all items that tie with the first one. -/
theorem tieRuns_cons (h : OrdersAmong (a :: m) cmp)
    (sorted : (a :: m).Pairwise fun a b => (cmp a b).isLE) :
    tieRuns cmp (a :: m) = (a :: m).filter (tiesWith cmp a) ::
      tieRuns cmp ((a :: m).filter fun b => !tiesWith cmp a b) := by
  have memA : a ∈ a :: m := List.mem_cons_self
  have level : ∀ b ∈ (a :: m).filter (tiesWith cmp a), ∀ c ∈ a :: m, cmp b c = .eq →
      tiesWith cmp a c = true := by
    intro b hb c hc tied
    obtain ⟨memB, tiedB⟩ := List.mem_filter.1 hb
    exact tiesWith_iff.2 (h.eq_trans memA memB hc (tiesWith_iff.1 tiedB) tied)
  have alike : ((a :: m).filter (tiesWith cmp a)).IsChain fun b c => tiesWith cmp b c = true := by
    refine List.Pairwise.isChain (List.pairwise_of_forall_mem_list ?_)
    intro b hb c hc
    obtain ⟨memB, tiedB⟩ := List.mem_filter.1 hb
    obtain ⟨memC, tiedC⟩ := List.mem_filter.1 hc
    exact tiesWith_iff.2 (h.eq_trans memB memA memC
      (h.eq_symm memA memB (tiesWith_iff.1 tiedB)) (tiesWith_iff.1 tiedC))
  have some_ : (a :: m).filter (tiesWith cmp a) ≠ [] :=
    List.ne_nil_of_mem (List.mem_filter.2 ⟨memA, tiesWith_iff.2 (h.refl memA)⟩)
  -- What stands between `a` and an item that ties with it ties with it too.
  have together : (a :: m).Pairwise fun b c => tiesWith cmp a c = true → tiesWith cmp a b = true := by
    refine sorted.imp_of_mem ?_
    intro b c memB memC upTo tied
    have back := h.trans memB memC memA upTo
      (Ordering.isLE_of_eq_eq (h.eq_symm memA memC (tiesWith_iff.1 tied)))
    exact tiesWith_iff.2 (h.eq_of_isLE memA memB (h.isLE_head memA sorted memB) back)
  have split := filter_append_of_pairwise together
  rw [tieRuns, ← split, List.splitBy_append, List.splitBy_of_isChain some_ alike, split]
  · rfl
  · intro b last c next
    have memC := List.mem_filter.1 (List.mem_of_mem_head? next)
    rw [tiesWith, beq_eq_false_iff_ne]
    intro tied
    have tiedA := level b (List.mem_of_getLast? last) c memC.1 tied
    simp [tiedA] at memC

/-- Items of one run of a sorted list tie, and items of two runs are strictly in order. -/
theorem tieRuns_inOrder {m : List α} (h : OrdersAmong m cmp)
    (sorted : m.Pairwise fun a b => (cmp a b).isLE) :
    (∀ run ∈ tieRuns cmp m, ∀ a ∈ run, ∀ b ∈ run, cmp a b = .eq) ∧
      (tieRuns cmp m).Pairwise fun s t => ∀ a ∈ s, ∀ b ∈ t, cmp a b = .lt := by
  match m with
  | [] => exact ⟨by simp [tieRuns], .nil⟩
  | a :: rest =>
      have memA : a ∈ a :: rest := List.mem_cons_self
      have subset : (a :: rest).filter (fun b => !tiesWith cmp a b) ⊆ a :: rest :=
        List.filter_sublist.subset
      have fewer : ((a :: rest).filter fun b => !tiesWith cmp a b).length < (a :: rest).length := by
        rw [List.filter_cons_of_neg (by simpa using tiesWith_iff.2 (h.refl memA))]
        exact Nat.lt_succ_of_le (List.length_filter_le _ rest)
      obtain ⟨level, apart⟩ := tieRuns_inOrder (h.mono subset) (sorted.filter _)
      rw [h.tieRuns_cons sorted]
      refine ⟨List.forall_mem_cons.2 ⟨?_, level⟩, List.pairwise_cons.2 ⟨?_, apart⟩⟩
      · intro b hb c hc
        obtain ⟨memB, tiedB⟩ := List.mem_filter.1 hb
        obtain ⟨memC, tiedC⟩ := List.mem_filter.1 hc
        exact h.eq_trans memB memA memC (h.eq_symm memA memB (tiesWith_iff.1 tiedB))
          (tiesWith_iff.1 tiedC)
      · intro t mem b hb c hc
        obtain ⟨memB, tiedB⟩ := List.mem_filter.1 hb
        obtain ⟨memC, untied⟩ := List.mem_filter.1 (mem_of_mem_tieRuns mem hc)
        have tied := h.eq_symm memA memB (tiesWith_iff.1 tiedB)
        have upTo := h.trans memB memA memC (Ordering.isLE_of_eq_eq tied)
          (h.isLE_head memA sorted memC)
        refine (Ordering.isLE_iff_eq_lt_or_eq_eq.1 upTo).resolve_right ?_
        intro tiedC
        simp [tiesWith_iff.2 (h.eq_trans memA memB memC (tiesWith_iff.1 tiedB) tiedC)] at untied
termination_by m.length
decreasing_by exact fewer

end OrdersAmong

/-- Turning the order of lists of which at most one holds something changes nothing. -/
theorem flatten_reverse_of_pairwise {lists : List (List α)}
    (alone : lists.Pairwise fun s t => s = [] ∨ t = []) :
    lists.reverse.flatten = lists.flatten := by
  induction lists with
  | nil => rfl
  | cons s rest ih =>
      obtain ⟨here, later⟩ := List.pairwise_cons.1 alone
      rw [List.reverse_cons, List.flatten_append, ih later, List.flatten_cons]
      by_cases empty : s = []
      · simp [empty]
      · have nothing : rest.flatten = [] := by
          rw [List.flatten_eq_nil_iff]
          intro t mem
          exact (here t mem).resolve_left empty
        simp [nothing]

namespace Sorts

theorem congr (h : Sorts first l m) (alike : ∀ a ∈ l, ∀ b ∈ l, first a b = second a b) :
    Sorts second l m := by
  have known := h.perm.subset
  refine ⟨h.perm, ?_, ?_⟩
  · refine h.inOrder.imp_of_mem ?_
    intro a b ha hb upTo
    rwa [← alike a (known ha) b (known hb)]
  · intro a ha
    have sameTies : ∀ b ∈ l, tiesWith second a b = tiesWith first a b := by
      intro b hb
      rw [tiesWith, tiesWith, alike a ha b hb]
    rw [List.filter_congr sameTies, ← h.ties a ha]
    exact List.filter_congr fun b hb => sameTies b (known hb)

/-- Turning the order of the runs that tie in the first order sorts by this order the other way
round, and by the second order as before. -/
theorem reverse_tieRuns (order : OrdersAmong l first)
    (h : Sorts (fun a b => (first a b).then (second a b)) l m) :
    Sorts (fun a b => (first b a).then (second a b)) l (tieRuns first m).reverse.flatten := by
  have known : m ⊆ l := h.perm.subset
  have whole := flatten_tieRuns first m
  obtain ⟨level, apart⟩ := (order.mono known).tieRuns_inOrder
    (h.inOrder.imp Ordering.isLE_left_of_isLE_then)
  have perm : (tieRuns first m).reverse.flatten.Perm m :=
    (List.reverse_perm _).flatten.trans (.of_eq whole)
  refine ⟨perm.trans h.perm, List.pairwise_flatten.2 ⟨?_, List.pairwise_reverse.2 ?_⟩, ?_⟩
  · intro run mem
    rw [List.mem_reverse] at mem
    have inOrder : run.Pairwise fun a b => ((first a b).then (second a b)).isLE := by
      refine h.inOrder.sublist ?_
      rw [← whole]
      exact List.sublist_flatten_of_mem mem
    refine inOrder.imp_of_mem ?_
    intro a b ha hb upTo
    rw [level run mem a ha b hb] at upTo
    rwa [level run mem b hb a ha]
  · refine apart.imp ?_
    intro s t before a ha b hb
    rw [before b hb a ha]
    rfl
  · intro a ha
    let ties := tiesWith (fun a b => (first a b).then (second a b)) a
    have sameTies : ∀ b ∈ l, tiesWith (fun a b => (first b a).then (second a b)) a b = ties b := by
      intro b hb
      simp only [ties, tiesWith]
      rw [order.swap hb ha]
      cases first a b <;> rfl
    -- What ties with `a` stands in one run, so it does not matter in which order the runs come.
    have alone : ((tieRuns first m).map (·.filter ties)).Pairwise fun s t => s = [] ∨ t = [] := by
      refine List.pairwise_map.2 (apart.imp_of_mem ?_)
      intro s t memS memT before
      by_contra both
      obtain ⟨someS, someT⟩ := not_or.1 both
      obtain ⟨b, hb⟩ := List.exists_mem_of_ne_nil _ someS
      obtain ⟨c, hc⟩ := List.exists_mem_of_ne_nil _ someT
      obtain ⟨inS, tiedB⟩ := List.mem_filter.1 hb
      obtain ⟨inT, tiedC⟩ := List.mem_filter.1 hc
      have memB := known (mem_of_mem_tieRuns memS inS)
      have memC := known (mem_of_mem_tieRuns memT inT)
      have tied := order.eq_trans memB ha memC
        (order.eq_symm ha memB (Ordering.then_eq_eq.1 (tiesWith_iff.1 tiedB)).1)
        (Ordering.then_eq_eq.1 (tiesWith_iff.1 tiedC)).1
      rw [before b inS c inT] at tied
      cases tied
    rw [List.filter_congr sameTies, ← h.ties a ha,
      List.filter_congr fun b hb => sameTies b (known (perm.subset hb)),
      List.filter_flatten, List.map_reverse, flatten_reverse_of_pairwise alone,
      ← List.filter_flatten, whole]

end Sorts

namespace SortKey

variable {key : String} {keys : List SortKey} {k : SortKey} {records : List Record} {r s : Record}

theorem compareByAll_of_isBlank (left : (r.value k.columnKey).isBlank = true)
    (right : (s.value k.columnKey).isBlank = true) :
    compareByAll (k :: keys) r s = compareByAll keys r s := by
  have tied : k.compareRecords r s = .eq := by
    simp only [compareRecords, Direction.compareValues, left, right]
  rw [compareByAll, tied, Ordering.eq_then]

/-- In both directions the blank records come last, sorted by the keys that follow. -/
theorem sort_eq_append_blanks (fits : ∀ key ∈ k :: keys, Commensurable records key.columnKey) :
    sort (k :: keys) records =
      sort (k :: keys) (records.filter fun r => !(r.value k.columnKey).isBlank) ++
        sort keys (records.filter fun r => (r.value k.columnKey).isBlank) := by
  have blanksLast : (sort (k :: keys) records).Pairwise fun r s =>
      (!(s.value k.columnKey).isBlank) = true → (!(r.value k.columnKey).isBlank) = true := by
    refine (sort_pairwise_first fits).imp ?_
    intro r s upTo present
    rw [Bool.not_eq_true'] at present ⊢
    exact k.direction.isBlank_eq_false_of_isLE upTo present
  have blanks : sort (k :: keys) (records.filter fun r => (r.value k.columnKey).isBlank) =
      sort keys (records.filter fun r => (r.value k.columnKey).isBlank) := by
    rw [sort_eq_mergeSort, sort_eq_mergeSort]
    refine mergeSort_congr ?_
    intro r hr s hs
    rw [compareByAll_of_isBlank (List.mem_filter.1 hr).2 (List.mem_filter.1 hs).2]
  rw [← blanks, sort_filter fits, sort_filter fits]
  simpa only [Bool.not_not] using (filter_append_of_pairwise blanksLast).symm

/-- Sorting the other way round by the first key leaves the blank records where they are, behind
all others and sorted by the keys that follow. Of the others the runs that tie on the first key
come in reverse order, and each run is as it was. -/
theorem sort_reversed (key : String) (keys : List SortKey) (records : List Record)
    (fits : ∀ k ∈ ⟨key, .ascending⟩ :: keys, Commensurable records k.columnKey) :
    ∃ upward downward blanks : List Record,
      sort (⟨key, .ascending⟩ :: keys) records = upward ++ blanks ∧
      sort (⟨key, .descending⟩ :: keys) records = downward ++ blanks ∧
      blanks = sort keys (records.filter fun r => (r.value key).isBlank) ∧
      (∀ r ∈ upward, (r.value key).isBlank = false) ∧
      downward = (tieRuns (compareRecords ⟨key, .ascending⟩) upward).reverse.flatten := by
  obtain ⟨here, later⟩ := List.forall_mem_cons.1 fits
  have fitsDown : ∀ k ∈ ⟨key, .descending⟩ :: keys, Commensurable records k.columnKey :=
    List.forall_mem_cons.2 ⟨here, later⟩
  let present := records.filter fun r => !(r.value key).isBlank
  have isPresent : ∀ r ∈ present, (r.value key).isBlank = false := by
    intro r mem
    simpa using (List.mem_filter.1 mem).2
  have part : present ⊆ records := List.filter_sublist.subset
  refine ⟨sort (⟨key, .ascending⟩ :: keys) present, sort (⟨key, .descending⟩ :: keys) present, _,
    sort_eq_append_blanks fits, sort_eq_append_blanks fitsDown, rfl, ?_, ?_⟩
  · intro r mem
    exact isPresent r ((sort_perm _ present).subset mem)
  · have fitsUpward : ∀ k ∈ ⟨key, .ascending⟩ :: keys, Commensurable present k.columnKey :=
      fun k mem => (fits k mem).mono part
    have fitsDownward : ∀ k ∈ ⟨key, .descending⟩ :: keys, Commensurable present k.columnKey :=
      fun k mem => (fitsDown k mem).mono part
    have order : OrdersAmong present (compareRecords ⟨key, .ascending⟩) :=
      ordersAmong (here.mono part)
    refine (ordersAmong_all fitsDownward).sorts_unique (sorts_sort fitsDownward) ?_
    refine ((sorts_sort fitsUpward).reverse_tieRuns order).congr ?_
    intro r hr s hs
    rw [compareByAll, compareRecords_descending order hr hs (isPresent r hr) (isPresent s hs)]

/-- Waits of some peers, two of them equal as a duration and a number and two of them blank, sorted
by wait and then by name. From shortest to longest or from longest to shortest, the equal waits
stand in the order of the names, and so do the blank ones behind them. -/
theorem sort_reversed_waits :
    let wait (id name : String) (v : Value) : Record :=
      ((Record.empty id).set "name" (.text name)).set "wait" v
    let records := [wait "1" "b" (.duration 90), wait "2" "d" .empty,
      wait "3" "a" (.number (.ofInt 90)), wait "4" "c" (.number .nan), wait "5" "e" (.duration 10)]
    let keys : List SortKey := [⟨"name", .ascending⟩]
    let shortest : SortKey := ⟨"wait", .ascending⟩
    let longest : SortKey := ⟨"wait", .descending⟩
    (∀ k ∈ shortest :: keys, Commensurable records k.columnKey) ∧
      (sort (shortest :: keys) records).map (·.id) = ["5", "3", "1", "4", "2"] ∧
      (sort (longest :: keys) records).map (·.id) = ["3", "1", "5", "4", "2"] ∧
      ∃ upward blanks : List Record,
        sort (shortest :: keys) records = upward ++ blanks ∧
        sort (longest :: keys) records =
          (tieRuns shortest.compareRecords upward).reverse.flatten ++ blanks ∧
        blanks = sort keys (records.filter fun r => (r.value "wait").isBlank) := by
  intro wait records keys shortest longest
  have measured : ∀ k ∈ shortest :: longest :: keys, Commensurable records k.columnKey := by
    intro k member
    refine .inr ?_
    intro r known seconds value
    have short : ∀ k ∈ shortest :: longest :: keys, ∀ r ∈ records, ∀ d,
        r.value k.columnKey = .duration d → d = 90 ∨ d = 10 := by
      have apart : "name" ≠ "wait" := by decide
      simp [keys, shortest, longest, records, wait, Record.value,
        Record.get?_set_of_ne _ apart, eq_comm]
    obtain rfl | rfl := short k member r known seconds value <;> decide
  obtain ⟨fitsHere, fitsDown⟩ := List.forall_mem_cons.1 measured
  have fits : ∀ k ∈ shortest :: keys, Commensurable records k.columnKey :=
    List.forall_mem_cons.2 ⟨fitsHere, (List.forall_mem_cons.1 fitsDown).2⟩
  -- There is one list sorted in each direction, so it is enough to show one.
  have upward : Sorts (compareByAll (shortest :: keys)) records [wait "5" "e" (.duration 10),
      wait "3" "a" (.number (.ofInt 90)), wait "1" "b" (.duration 90),
      wait "4" "c" (.number .nan), wait "2" "d" .empty] :=
    ⟨by decide +kernel, by decide +kernel, by decide +kernel⟩
  have downward : Sorts (compareByAll (longest :: keys)) records [
      wait "3" "a" (.number (.ofInt 90)), wait "1" "b" (.duration 90), wait "5" "e" (.duration 10),
      wait "4" "c" (.number .nan), wait "2" "d" .empty] :=
    ⟨by decide +kernel, by decide +kernel, by decide +kernel⟩
  obtain ⟨up, down, blanks, shownUp, shownDown, last, -, turned⟩ :=
    sort_reversed "wait" keys records fits
  refine ⟨fits, ?_, ?_, up, blanks, shownUp, turned ▸ shownDown, last⟩
  · rw [(ordersAmong_all fits).sorts_unique (sorts_sort fits) upward]
    rfl
  · rw [(ordersAmong_all fitsDown).sorts_unique (sorts_sort fitsDown) downward]
    rfl

end SortKey

end TableView
