import TableView.Record
import TableView.Schema
import TableView.Sort.Routine
import TableView.Text.Lowercase

/-!
# Sorting records

Records are sorted by several keys: the first key that tells two records apart
decides, and records that no key tells apart keep their order. Blank values come
last in both directions.

Values of one kind have their natural order; a duration and a number compare as
numbers of seconds. Values of other different kinds are ordered by kind.

This is no order where a number meets durations that it cannot tell apart but that
differ. What is sorted then depends on the sorting routine, and there may be no result
(`SortKey.sortWith`). Where the keys order the records, every routine gives `SortKey.sort`.
-/

namespace TableView

/-- The direction of a sort key. -/
inductive Direction where
  | ascending
  | descending
deriving DecidableEq

/-- A field to sort by. -/
structure SortKey where
  columnKey : String
  direction : Direction
deriving DecidableEq

namespace Value

/-- The place of a kind among values of different kinds. -/
def kindRank : Value → Nat
  | number _ => 0
  | duration _ => 1
  | date _ => 2
  | text _ => 3
  | tag _ => 4
  | list _ => 5
  | boolean _ => 6
  | empty => 7

/-- Compares two numbers; what cannot be compared counts as equal. -/
def compareNumbers (x y : Binary64) : Ordering := (x.compare? y).getD .eq

/-- Compares two texts without regard to case, code point by code point. -/
def compareTexts (a b : String) : Ordering := compare (Text.lowercase a) (Text.lowercase b)

/-- The ascending order of values that are not blank. -/
def compareTo : Value → Value → Ordering
  | number x, number y => compareNumbers x y
  | duration x, duration y => compare x.toInt y.toInt
  | number x, duration y => compareNumbers x (.ofInt y.toInt)
  | duration x, number y => compareNumbers (.ofInt x.toInt) y
  | date x, date y => compare x y
  | text x, text y => compareTexts x y
  | tag x, tag y => compareTexts x y
  | list x, list y => compareTexts (",".intercalate x) (",".intercalate y)
  | boolean x, boolean y => compare x.toNat y.toNat
  | a, b => compare a.kindRank b.kindRank

end Value

namespace Direction

/-- The order of two values in a direction. Blanks come last in both. -/
def compareValues (d : Direction) (a b : Value) : Ordering :=
  match a.isBlank, b.isBlank with
  | true, true => .eq
  | true, false => .gt
  | false, true => .lt
  | false, false =>
    match d with
    | ascending => a.compareTo b
    | descending => (a.compareTo b).swap

end Direction

namespace SortKey

/-- The order of two records by one key. -/
def compareRecords (k : SortKey) (a b : Record) : Ordering :=
  k.direction.compareValues (a.value k.columnKey) (b.value k.columnKey)

/-- The order of two records by several keys, the first that tells them apart deciding. -/
def compareByAll : List SortKey → Record → Record → Ordering
  | [], _, _ => .eq
  | k :: rest, a, b => (k.compareRecords a b).then (compareByAll rest a b)

/-- Sorts records by several keys with a sorting routine, which is not called without keys. -/
def sortWith (routine : SortRoutine Record) (keys : List SortKey) (records : List Record) :
    Option (List Record) :=
  if keys.isEmpty then some records else routine.run (compareByAll keys) records

/-- Records sorted by several keys with merge sort. Every other sorting routine arranges them
in the same way if the keys order them. -/
def sort (keys : List SortKey) (records : List Record) : List Record :=
  if keys.isEmpty then records
  else records.mergeSort fun a b => compareByAll keys a b != .gt

/-- The issue of a key that a schema does not allow to sort by. -/
def issue? (k : SortKey) (s : Schema) : Option Issue :=
  match s.resolve .sort k.columnKey with
  | .ok _ => none
  | .error issue => some issue

/-- The issues of several keys in their order. -/
def issues (keys : List SortKey) (s : Schema) : List Issue := keys.filterMap (·.issue? s)

/-- Splits keys into those that a schema allows and the issues of the others. -/
def allowed (s : Schema) : List SortKey → List SortKey × List Issue
  | [] => ([], [])
  | k :: rest =>
    let (kept, issues) := allowed s rest
    match s.resolve .sort k.columnKey with
    | .ok _ => (k :: kept, issues)
    | .error issue => (kept, issue :: issues)

@[simp] theorem sort_nil (records : List Record) : sort [] records = records := rfl

/-- The keys that may be sorted by are those without an issue, and the issues are those of the
others. -/
theorem allowed_eq (s : Schema) (keys : List SortKey) :
    allowed s keys = (keys.filter fun k => (k.issue? s).isNone, issues keys s) := by
  induction keys with
  | nil => rfl
  | cons k rest ih =>
    rw [allowed, ih]
    cases found : s.resolve .sort k.columnKey with
    | ok column => simp [issues, issue?, found]
    | error issue => simp [issues, issue?, found]

theorem sortWith_merge (keys : List SortKey) (records : List Record) :
    sortWith .merge keys records = some (sort keys records) := by
  rw [sortWith, sort]
  split <;> rfl

theorem sortWith_perm {routine : SortRoutine Record} {keys : List SortKey}
    {records sorted : List Record} (sorts : sortWith routine keys records = some sorted) :
    sorted.Perm records := by
  rw [sortWith] at sorts
  split at sorts
  · exact Option.some.inj sorts ▸ .refl records
  · exact routine.perm sorts

/-- All routines arrange records in the same way that the keys order. -/
theorem sortWith_of_ordersAmong (routine : SortRoutine Record) {keys : List SortKey}
    {records : List Record} (orders : OrdersAmong records (compareByAll keys)) :
    sortWith routine keys records = some (sort keys records) := by
  rw [sortWith, sort]
  split
  · rfl
  · exact routine.stable orders

/-- Records are sorted whatever the routine exactly if the keys order them. -/
theorem exists_sortWith_iff {keys : List SortKey} {records : List Record} :
    (∀ routine, ∃ sorted, sortWith routine keys records = some sorted) ↔
      OrdersAmong records (compareByAll keys) := by
  constructor
  · intro always
    cases keys with
    | nil => exact .indifferent records
    | cons k rest => exact SortRoutine.exists_run_iff.1 always
  · intro orders routine
    exact ⟨_, sortWith_of_ordersAmong routine orders⟩

theorem sort_perm (keys : List SortKey) (records : List Record) :
    (sort keys records).Perm records := by
  rw [sort]
  split
  · exact .refl records
  · exact List.mergeSort_perm records _

theorem compareByAll_singleton (k : SortKey) (a b : Record) :
    compareByAll [k] a b = k.compareRecords a b := by
  simp only [compareByAll]
  cases k.compareRecords a b <;> rfl

end SortKey

end TableView
