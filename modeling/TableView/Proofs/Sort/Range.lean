import TableView.Filter
import TableView.Proofs.Condition.Range
import TableView.Proofs.Sort.Ties

/-!
# Range filters on sorted records

Records that are sorted by a field stand in its order, and a range condition on the field is met
by whatever stands between two values that meet it. So the records that a range filter keeps
stand together among the sorted ones: there is nothing to keep before them, nothing behind them
and nothing to leave out between them.
-/

namespace TableView

/-- Whether the items of a kind stand together in a list. -/
def StandTogether (p : α → Bool) (l : List α) : Prop :=
  ∃ before run after, l = before ++ run ++ after ∧
    (∀ a ∈ before, p a = false) ∧ (∀ a ∈ run, p a = true) ∧ ∀ a ∈ after, p a = false

/-- Items of a kind stand together if everything between two of them is of the kind. -/
theorem standTogether_of_between {p : α → Bool} {r : α → α → Prop} {l : List α}
    (inOrder : l.Pairwise r)
    (between : ∀ a ∈ l, ∀ b ∈ l, ∀ c ∈ l, r a b → r b c → p a = true → p c = true → p b = true) :
    StandTogether p l := by
  induction l with
  | nil => exact ⟨[], [], [], rfl, by simp, by simp, by simp⟩
  | cons a rest ih =>
      obtain ⟨first, later⟩ := List.pairwise_cons.1 inOrder
      cases holds : p a with
      | false =>
          obtain ⟨before, run, after, split, outside, inside, behind⟩ := ih later
            fun b hb c hc d hd => between b (List.mem_cons_of_mem a hb) c (List.mem_cons_of_mem a hc)
              d (List.mem_cons_of_mem a hd)
          refine ⟨a :: before, run, after, ?_, List.forall_mem_cons.2 ⟨holds, outside⟩, inside, behind⟩
          rw [split, List.cons_append, List.cons_append]
      | true =>
          have ahead : rest.Pairwise fun b c => p c = true → p b = true := by
            refine later.imp_of_mem ?_
            intro b c hb hc upTo
            exact between a List.mem_cons_self b (List.mem_cons_of_mem a hb) c
              (List.mem_cons_of_mem a hc) (first b hb) upTo holds
          refine ⟨[], a :: rest.filter p, rest.filter (fun b => !p b), ?_, by simp, ?_, ?_⟩
          · rw [List.nil_append, List.cons_append, filter_append_of_pairwise ahead]
          · refine List.forall_mem_cons.2 ⟨holds, ?_⟩
            intro b mem
            exact (List.mem_filter.1 mem).2
          · intro b mem
            simpa using (List.mem_filter.1 mem).2

namespace SortKey

variable {k : SortKey} {records : List Record} {condition : Condition}

/-- A record between two records that meet a range condition on the field they are sorted by
meets it. -/
theorem accepts_between (fits : Commensurable records k.columnKey) (range : condition.isRange = true)
    {r s t : Record} (hr : r ∈ records) (hs : s ∈ records) (ht : t ∈ records)
    (alone : ∀ test, condition = .number test → ∀ seconds, s.value k.columnKey ≠ .duration seconds)
    (below : (k.compareRecords r s).isLE) (above : (k.compareRecords s t).isLE)
    (first : condition.accepts (r.value k.columnKey) = true)
    (last : condition.accepts (t.value k.columnKey) = true) :
    condition.accepts (s.value k.columnKey) = true := by
  have presentR := Condition.isBlank_of_isRange range first
  have presentT := Condition.isBlank_of_isRange range last
  have presentS := k.direction.isBlank_eq_false_of_isLE above presentT
  obtain ⟨key, direction⟩ := k
  cases direction with
  | ascending =>
      rw [compareRecords_ascending presentR presentS] at below
      rw [compareRecords_ascending presentS presentT] at above
      exact Condition.accepts_between range below above presentS alone first last
  | descending =>
      -- Read from the end, the records ascend.
      have order : OrdersAmong records (compareRecords ⟨key, .ascending⟩) := ordersAmong fits
      rw [compareRecords_descending order hr hs presentR presentS,
        compareRecords_ascending presentS presentR] at below
      rw [compareRecords_descending order hs ht presentS presentT,
        compareRecords_ascending presentT presentS] at above
      exact Condition.accepts_between range above below presentS alone last first

/-- Among records sorted by a field, those that meet a range condition on it stand together,
whatever the bounds are. A condition on numbers reads no durations, so there it matters that the
field holds none. -/
theorem range_standsTogether (k : SortKey) (condition : Condition) (records : List Record)
    (fits : Commensurable records k.columnKey) (range : condition.isRange = true)
    (alone : ∀ test, condition = .number test → ∀ r ∈ records, ∀ seconds,
      r.value k.columnKey ≠ .duration seconds) :
    StandTogether (Clause.mk k.columnKey condition).keeps (sort [k] records) := by
  have known := (sort_perm [k] records).subset
  apply standTogether_of_between (sort_pairwise_first (List.forall_mem_singleton.2 fits))
  intro r hr s hs t ht below above first last
  exact accepts_between fits range (known hr) (known hs) (known ht)
    (fun test asked => alone test asked s (known hs)) below above first last

/-- Waits of some peers, as durations and as numbers of seconds, from longest to shortest. Those
between fifty and a hundred seconds stand together, the longer ones and a remark before them, a
shorter one and the missing ones behind. -/
theorem range_standsTogether_waits :
    let wait (id : String) (v : Value) : Record := (Record.empty id).set "wait" v
    let records := [wait "1" (.number (.ofInt 90)), wait "2" .empty, wait "3" (.duration 60),
      wait "4" (.text "unknown"), wait "5" (.duration 10), wait "6" (.number .nan),
      wait "7" (.duration 3600)]
    let longest : SortKey := ⟨"wait", .descending⟩
    let medium : Condition := .duration (.between (.ofInt 50) (.ofInt 100))
    Commensurable records "wait" ∧ medium.isRange = true ∧
      (sort [longest] records).map (·.id) = ["4", "7", "1", "3", "5", "2", "6"] ∧
      ((sort [longest] records).filter (Clause.mk "wait" medium).keeps).map (·.id) = ["1", "3"] ∧
      StandTogether (Clause.mk "wait" medium).keeps (sort [longest] records) := by
  intro wait records longest medium
  have fits : Commensurable records "wait" := by
    refine .inr ?_
    intro r known seconds value
    have short : ∀ r ∈ records, ∀ d, r.value "wait" = .duration d → d = 60 ∨ d = 10 ∨ d = 3600 := by
      simp [records, wait, Record.value, eq_comm]
    obtain rfl | rfl | rfl := short r known seconds value <;> decide
  -- There is one sorted list, so it is enough to show one.
  have shown : Sorts (compareByAll [longest]) records [wait "4" (.text "unknown"),
      wait "7" (.duration 3600), wait "1" (.number (.ofInt 90)), wait "3" (.duration 60),
      wait "5" (.duration 10), wait "2" .empty, wait "6" (.number .nan)] :=
    ⟨by decide +kernel, by decide +kernel, by decide +kernel⟩
  have fitsAll : ∀ k ∈ [longest], Commensurable records k.columnKey :=
    List.forall_mem_singleton.2 fits
  have sorted := (ordersAmong_all fitsAll).sorts_unique (sorts_sort fitsAll) shown
  refine ⟨fits, rfl, ?_, ?_, range_standsTogether longest medium records fits rfl ?_⟩
  · rw [sorted]
    rfl
  · rw [sorted]
    decide +kernel
  · intro test asked
    simp [medium] at asked

end SortKey

end TableView
