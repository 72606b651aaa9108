import TableView.Filter
import TableView.Proofs.Group.Partition
import TableView.Sort

/-!
# What the stages call blank

Sorting and grouping have one notion of a blank value: what is empty, and the number
that is none. A filter asks whether a value is empty, and for it that number is not. So
the three stages agree about a value unless it is that number, and after the empty
values of a field were filtered out, grouping by it finds a blank group exactly if such
a number is left (`stages_agree_on_blank_iff`).
-/

namespace TableView

namespace Value

/-- Whether a value is the number that is none. -/
def IsNaN (v : Value) : Prop := ∃ x : Binary64, v = number x ∧ x.isNaN = true

/-- Whether sorting puts a value last: behind some other one in both directions. -/
def SortsLast (v : Value) : Prop := ∃ w : Value, ∀ d : Direction, d.compareValues v w = .gt

variable {v w : Value}

theorem isBlank_iff : v.isBlank = true ↔ v.isEmpty = true ∨ v.IsNaN := by
  cases v <;> simp [isBlank, isEmpty, IsNaN]

theorem IsNaN.isEmpty_eq_false (nan : v.IsNaN) : v.isEmpty = false := by
  obtain ⟨x, rfl, -⟩ := nan
  rfl

/-- Sorting puts the blank values last, and no others: of two values that are not blank the
directions put different ones behind. -/
theorem sortsLast_iff : v.SortsLast ↔ v.isBlank = true := by
  constructor
  · rintro ⟨w, behind⟩
    by_contra present
    have up := behind .ascending
    have down := behind .descending
    rw [Bool.not_eq_true] at present
    cases blank : w.isBlank with
    | true => simp [Direction.compareValues, present, blank] at up
    | false =>
        simp only [Direction.compareValues, present, blank] at up down
        rw [up] at down
        cases down
  · intro blank
    have present : (boolean true).isBlank = false := rfl
    refine ⟨boolean true, fun d => ?_⟩
    simp only [Direction.compareValues, blank, present]

/-- What is put last stands behind everything else, in both directions. -/
theorem SortsLast.behind (last : v.SortsLast) (other : ¬ w.SortsLast) (d : Direction) :
    d.compareValues v w = .gt := by
  rw [sortsLast_iff] at last other
  rw [Bool.not_eq_true] at other
  simp only [Direction.compareValues, last, other]

end Value

namespace Group

variable {key : String} {records : List Record} {r : Record} {g : Group}

theorem valueOf_eq_empty_iff {v : Value} : valueOf v = .empty ↔ v.isBlank = true := by
  rw [valueOf]
  cases blank : v.isBlank with
  | true => simp
  | false =>
      simp only [Bool.false_eq_true, if_false, iff_false]
      intro empty
      rw [empty] at blank
      cases blank

/-- A group is for the empty value exactly if the values of its members are blank. -/
theorem value_eq_empty_iff (mem : g ∈ partition key records) (member : r ∈ g.members) :
    g.value = .empty ↔ (r.value key).isBlank = true := by
  have alike := (mem_partition mem).2 r member
  rw [← Value.groupKey_eq_blank_iff, alike]
  obtain ⟨first, -, rfl⟩ := List.mem_map.1 mem
  simp only [around, groupKey_valueOf]
  rw [Value.groupKey_eq_blank_iff, valueOf_eq_empty_iff]

/-- Whether grouping puts a record into a group for the empty value. -/
def PutsInBlank (key : String) (records : List Record) (r : Record) : Prop :=
  ∃ g ∈ partition key records, r ∈ g.members ∧ g.value = .empty

theorem putsInBlank_iff (mem : r ∈ records) :
    PutsInBlank key records r ↔ (r.value key).isBlank = true := by
  constructor
  · rintro ⟨g, found, member, empty⟩
    exact (value_eq_empty_iff found member).1 empty
  · intro blank
    have grouped := (partition_members_perm key records).mem_iff.2 mem
    obtain ⟨g, found, member⟩ := List.mem_flatMap.1 grouped
    exact ⟨g, found, member, (value_eq_empty_iff found member).2 blank⟩

/-- There is a group for the empty value exactly if a record has a blank value. -/
theorem exists_blank_iff (key : String) (records : List Record) :
    (∃ g ∈ partition key records, g.value = .empty) ↔
      ∃ r ∈ records, (r.value key).isBlank = true := by
  constructor
  · rintro ⟨g, found, empty⟩
    obtain ⟨r, member⟩ := List.exists_mem_of_ne_nil _ (mem_partition found).1
    have known : r ∈ records := (partition_members_perm key records).mem_iff.1
      (List.mem_flatMap.2 ⟨g, found, member⟩)
    exact ⟨r, known, (value_eq_empty_iff found member).1 empty⟩
  · rintro ⟨r, known, blank⟩
    obtain ⟨g, found, -, empty⟩ := (putsInBlank_iff known).2 blank
    exact ⟨g, found, empty⟩

end Group

/-- Sorting puts a record last by a field exactly if grouping by the field puts it into the
blank group. The clause for empty values keeps just these records unless the value is the
number that is none; and if the clause for other values is applied first, grouping finds a
blank group exactly if such a number is among the values. -/
theorem stages_agree_on_blank_iff (key : String) (r : Record) (records : List Record) :
    (r ∈ records → ((r.value key).SortsLast ↔ Group.PutsInBlank key records r)) ∧
      ((r.value key).SortsLast →
        ∀ w : Value, ¬ w.SortsLast → ∀ d : Direction, d.compareValues (r.value key) w = .gt) ∧
      (((⟨key, .isEmpty⟩ : Clause).keeps r = true ↔ (r.value key).SortsLast) ↔
        ¬ (r.value key).IsNaN) ∧
      ((∃ g ∈ Group.partition key (records.filter (⟨key, .isNotEmpty⟩ : Clause).keeps),
          g.value = .empty) ↔
        ∃ other ∈ records, (other.value key).IsNaN) := by
  refine ⟨?_, fun last w other d => last.behind other d, ?_, ?_⟩
  · intro mem
    rw [Value.sortsLast_iff, Group.putsInBlank_iff mem]
  · rw [Value.sortsLast_iff, Value.isBlank_iff, Clause.keeps, Condition.accepts_isEmpty]
    constructor
    · intro agree nan
      have empty := agree.2 (.inr nan)
      rw [nan.isEmpty_eq_false] at empty
      cases empty
    · intro number
      exact ⟨.inl, fun blank => blank.resolve_right number⟩
  · rw [Group.exists_blank_iff]
    constructor
    · rintro ⟨other, mem, blank⟩
      obtain ⟨known, kept⟩ := List.mem_filter.1 mem
      have present : (other.value key).isEmpty = false := by
        simpa [Clause.keeps] using kept
      obtain empty | nan := Value.isBlank_iff.1 blank
      · rw [present] at empty
        cases empty
      · exact ⟨other, known, nan⟩
    · rintro ⟨other, known, nan⟩
      have kept : (⟨key, .isNotEmpty⟩ : Clause).keeps other = true := by
        simp [Clause.keeps, nan.isEmpty_eq_false]
      exact ⟨other, List.mem_filter.2 ⟨known, kept⟩, Value.isBlank_iff.2 (.inr nan)⟩

/-- A record without an amount, beside one whose amount is a number: all stages call the first
blank. -/
theorem stages_agree_on_missing_amount :
    let missing := Record.empty "1"
    let records := [missing, (Record.empty "2").set "amt" (.number (.zero false))]
    missing ∈ records ∧ (missing.value "amt").SortsLast ∧
      Group.PutsInBlank "amt" records missing ∧
      ¬ (Value.number (.zero false)).SortsLast ∧
      (∀ d : Direction, d.compareValues (missing.value "amt") (.number (.zero false)) = .gt) ∧
      (⟨"amt", .isEmpty⟩ : Clause).keeps missing = true := by
  intro missing records
  have mem : missing ∈ records := List.mem_cons_self
  have last : (missing.value "amt").SortsLast := Value.sortsLast_iff.2 (by decide)
  have present : ¬ (Value.number (.zero false)).SortsLast := by
    rw [Value.sortsLast_iff]
    decide
  have number : ¬ (missing.value "amt").IsNaN := by
    rintro ⟨x, amount, -⟩
    cases amount
  obtain ⟨grouped, behind, filtered, -⟩ := stages_agree_on_blank_iff "amt" missing records
  exact ⟨mem, last, (grouped mem).1 last, present, behind last _ present,
    (filtered.2 number).2 last⟩

/-- Of the number that is none, sorting and grouping say that it is blank, and a filter that it
is not empty. -/
theorem stages_disagree_on_nan :
    ¬ ∀ (key : String) (r : Record) (records : List Record), r ∈ records →
      ((⟨key, .isEmpty⟩ : Clause).keeps r = true ↔ (r.value key).SortsLast) ∧
        ((r.value key).SortsLast ↔ Group.PutsInBlank key records r) ∧
        ∀ g ∈ Group.partition key (records.filter (⟨key, .isNotEmpty⟩ : Clause).keeps),
          g.value ≠ .empty := by
  intro agree
  let nan := (Record.empty "1").set "amt" (.number .nan)
  obtain ⟨filtered, -, -⟩ := agree "amt" nan [nan] List.mem_cons_self
  have last : (nan.value "amt").SortsLast := Value.sortsLast_iff.2 (by decide)
  have kept := filtered.2 last
  revert kept
  decide

end TableView
