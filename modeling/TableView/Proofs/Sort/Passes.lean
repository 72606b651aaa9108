import TableView.Proofs.Sort.Ties

/-!
# Sorting by several keys, one key at a time

Sorting by several keys is sorting by each of them alone, the last key first: a pass by one
key leaves the records that tie on it as the passes before have put them. A key on a field
that an earlier key has already told apart decides nothing, in whichever direction.
-/

namespace TableView

/-- Values that tie in one direction tie in the other. -/
theorem Direction.compareValues_eq_eq (d e : Direction) {a b : Value}
    (tied : d.compareValues a b = .eq) : e.compareValues a b = .eq := by
  cases left : a.isBlank <;> cases right : b.isBlank <;> cases d <;> cases e <;>
    simp_all [compareValues]

namespace SortKey

variable {keys : List SortKey} {k : SortKey} {records : List Record} {a b : Record}

theorem compareByAll_append (before after : List SortKey) (a b : Record) :
    compareByAll (before ++ after) a b =
      (compareByAll before a b).then (compareByAll after a b) := by
  induction before with
  | nil => rfl
  | cons k rest ih => rw [List.cons_append, compareByAll, compareByAll, ih, Ordering.then_assoc]

/-- Records that no key tells apart tie on each of them. -/
theorem compareRecords_of_mem (tied : compareByAll keys a b = .eq) (mem : k ∈ keys) :
    k.compareRecords a b = .eq := by
  induction keys with
  | nil => cases mem
  | cons first rest ih =>
      obtain ⟨here, there⟩ := Ordering.then_eq_eq.1 tied
      obtain rfl | later := List.mem_cons.1 mem
      · exact here
      · exact ih there later

/-- A key on the field of an earlier key decides nothing. -/
theorem compareByAll_without {before : List SortKey} {earlier : SortKey} (mem : earlier ∈ before)
    (sameField : earlier.columnKey = k.columnKey) (after : List SortKey) :
    compareByAll (before ++ k :: after) = compareByAll (before ++ after) := by
  funext a b
  rw [compareByAll_append, compareByAll_append, compareByAll]
  cases decided : compareByAll before a b with
  | lt => rfl
  | gt => rfl
  | eq =>
      have tied : k.compareRecords a b = .eq := by
        have level := compareRecords_of_mem decided mem
        rw [compareRecords, sameField] at level
        exact earlier.direction.compareValues_eq_eq k.direction level
      rw [tied, Ordering.eq_then]

theorem sort_cons (fits : ∀ key ∈ k :: keys, Commensurable records key.columnKey) :
    sort (k :: keys) records = sort [k] (sort keys records) := by
  obtain ⟨here, later⟩ := List.forall_mem_cons.1 fits
  have rearranged : sort keys records ⊆ records := (sort_perm keys records).subset
  have inner : Sorts (compareByAll keys) records (sort keys records) := sorts_sort later
  have outer : Sorts (compareByAll [k]) (sort keys records) (sort [k] (sort keys records)) :=
    sorts_sort (List.forall_mem_singleton.2 (here.mono rearranged))
  have single : compareByAll [k] = k.compareRecords := by
    funext a b
    exact compareByAll_singleton k a b
  rw [single] at outer
  exact (ordersAmong_all fits).sorts_unique (sorts_sort fits) (inner.lex (ordersAmong here) outer)

/-- Sorting by all keys is sorting by each of them in turn, from the last to the first. -/
theorem sort_eq_foldr (fits : ∀ k ∈ keys, Commensurable records k.columnKey) :
    sort keys records = keys.foldr (fun k sorted => sort [k] sorted) records := by
  induction keys with
  | nil => rfl
  | cons k rest ih =>
      rw [sort_cons fits, ih (List.forall_mem_cons.1 fits).2, List.foldr_cons]

/-- Sorting by several keys is sorting by the first of them what is sorted by the others, so it is
sorting by one key after the other. A key on the field of an earlier key can be left out, whatever
the directions of the two are. -/
theorem sort_passes (k : SortKey) (keys : List SortKey) (records : List Record)
    (fits : ∀ key ∈ k :: keys, Commensurable records key.columnKey) :
    sort (k :: keys) records = sort [k] (sort keys records) ∧
      sort (k :: keys) records =
        (k :: keys).foldr (fun key sorted => sort [key] sorted) records ∧
      ∀ (before after : List SortKey) (later : SortKey), k :: keys = before ++ later :: after →
        (∃ earlier ∈ before, earlier.columnKey = later.columnKey) →
        sort (k :: keys) records = sort (before ++ after) records := by
  refine ⟨sort_cons fits, sort_eq_foldr fits, ?_⟩
  rintro before after later split ⟨earlier, mem, sameField⟩
  rw [split, sort_eq_mergeSort, sort_eq_mergeSort, compareByAll_without mem sameField]

/-- Waits of some peers, two of them equal as a duration and a number and one missing, sorted by
wait and then by name. Asking for the waits once more, the other way round, moves nothing. -/
theorem sort_passes_waits :
    let wait (id name : String) (v : Value) : Record :=
      ((Record.empty id).set "name" (.text name)).set "wait" v
    let records := [wait "1" "b" (.duration 90), wait "2" "a" .empty,
      wait "3" "A" (.number (.ofInt 90)), wait "4" "c" (.duration 100)]
    let longest : SortKey := ⟨"wait", .descending⟩
    let byName : SortKey := ⟨"name", .ascending⟩
    let shortest : SortKey := ⟨"wait", .ascending⟩
    (∀ key ∈ [longest, byName, shortest], Commensurable records key.columnKey) ∧
      (sort [longest, byName, shortest] records).map (·.id) = ["4", "3", "1", "2"] ∧
      sort [longest, byName, shortest] records = sort [longest] (sort [byName, shortest] records) ∧
      sort [longest, byName, shortest] records = sort [longest, byName] records := by
  intro wait records longest byName shortest
  have fits : ∀ key ∈ [longest, byName, shortest], Commensurable records key.columnKey := by
    intro key member
    refine .inr ?_
    intro r known seconds value
    have short : ∀ key ∈ [longest, byName, shortest], ∀ r ∈ records, ∀ d,
        r.value key.columnKey = .duration d → d = 90 ∨ d = 100 := by
      have apart : "name" ≠ "wait" := by decide
      simp [longest, byName, shortest, records, wait, Record.value,
        Record.get?_set_of_ne _ apart, eq_comm]
    obtain rfl | rfl := short key member r known seconds value <;> decide
  -- There is one sorted list, so it is enough to show one.
  have shown : Sorts (compareByAll [longest, byName, shortest]) records
      [wait "4" "c" (.duration 100), wait "3" "A" (.number (.ofInt 90)),
        wait "1" "b" (.duration 90), wait "2" "a" .empty] :=
    ⟨by decide +kernel, by decide +kernel, by decide +kernel⟩
  obtain ⟨step, -, without⟩ := sort_passes longest [byName, shortest] records fits
  refine ⟨fits, ?_, step, ?_⟩
  · rw [(ordersAmong_all fits).sorts_unique (sorts_sort fits) shown]
    rfl
  · exact without [longest, byName] [] shortest rfl ⟨longest, List.mem_cons_self, rfl⟩

end SortKey

end TableView
