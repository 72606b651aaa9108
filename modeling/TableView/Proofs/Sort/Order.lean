import TableView.Proofs.Binary64.Whole
import TableView.Sort

/-!
# The order that records are sorted in

Comparing values is comparing their places on a line (`Value.place`), provided that
durations and numbers meet on one scale: either there are no numbers, and durations are
measured in seconds, or the durations are representable as numbers. Comparisons of places
are orders, hence so are the comparisons of records by such fields, one by one and by
several keys, and sorted records stand in that order (`SortKey.sort_pairwise`).

Where large durations meet numbers there is no such order: two durations may differ that
one and the same number equals.
-/

namespace TableView

/-- If a list holds nothing of a kind after something else, what is of the kind comes first. -/
theorem filter_append_of_pairwise {p : α → Bool} {l : List α}
    (first : l.Pairwise fun a b => p b = true → p a = true) :
    l.filter p ++ l.filter (fun a => !p a) = l := by
  induction l with
  | nil => rfl
  | cons a rest ih =>
      obtain ⟨here, later⟩ := List.pairwise_cons.1 first
      cases holds : p a with
      | true =>
          rw [List.filter_cons_of_pos holds, List.filter_cons_of_neg (by simp [holds]),
            List.cons_append, ih later]
      | false =>
          have none_ : ∀ b ∈ rest, p b = false := by
            intro b mem
            cases other : p b with
            | true => rw [here b mem other] at holds; cases holds
            | false => rfl
          have all : rest.filter (fun b => !p b) = rest := by
            rw [List.filter_eq_self]
            intro b mem
            simp [none_ b mem]
          have none : rest.filter p = [] := by
            rw [List.filter_eq_nil_iff]
            intro b mem
            simp [none_ b mem]
          rw [List.filter_cons_of_neg (by simp [holds]), List.filter_cons_of_pos (by simp [holds]),
            none, all, List.nil_append]

/-- How durations are measured: in seconds, where there are no numbers, or as numbers. -/
inductive Scale where
  | seconds
  | numbers

/-- Whether a scale measures a value together with durations without loss. -/
def Scale.Fits : Scale → Value → Prop
  | seconds, .number _ => False
  | numbers, .duration s => s.toInt.natAbs ≤ Binary64.exactBound
  | _, _ => True

/-- The measure of a duration. -/
def Scale.measure (scale : Scale) (d : Int64) : Int :=
  match scale with
  | .seconds => d.toInt
  | .numbers => (Binary64.ofInt d.toInt).rank

/-- Durations that fit a scale are compared by their measures. -/
theorem Scale.compare_measure {scale : Scale} {d e : Int64} (fitsLeft : scale.Fits (.duration d))
    (fitsRight : scale.Fits (.duration e)) :
    compare (scale.measure d) (scale.measure e) = compare d.toInt e.toInt := by
  cases scale with
  | seconds => rfl
  | numbers => exact Binary64.compare_rank_ofInt fitsLeft fitsRight

/-- Where a value stands: a section of the line, a position in it, and a text where texts
stand. -/
structure Place where
  kind : Nat
  position : Int
  text : String

instance : Ord Place :=
  ⟨compareLex (compareOn Place.kind) (compareLex (compareOn Place.position) (compareOn Place.text))⟩

instance : Std.TransOrd Place :=
  inferInstanceAs (Std.TransCmp (compareLex (compareOn Place.kind)
    (compareLex (compareOn Place.position) (compareOn Place.text))))

namespace Place

theorem compare_eq (p q : Place) : compare p q =
    (compare p.kind q.kind).then ((compare p.position q.position).then (compare p.text q.text)) :=
  rfl

theorem compare_position (kind : Nat) (p q : Int) (text : String) :
    compare (Place.mk kind p text) (Place.mk kind q text) = compare p q := by
  rw [compare_eq, Std.ReflOrd.compare_self, Std.ReflOrd.compare_self, Ordering.eq_then,
    Ordering.then_eq]

theorem compare_text (kind : Nat) (position : Int) (s t : String) :
    compare (Place.mk kind position s) (Place.mk kind position t) = compare s t := by
  rw [compare_eq, Std.ReflOrd.compare_self, Std.ReflOrd.compare_self, Ordering.eq_then,
    Ordering.eq_then]

end Place

namespace Value

/-- The place of a value. Numbers and durations share a section. -/
def place (scale : Scale) : Value → Place
  | number x => ⟨0, x.rank, ""⟩
  | duration d => ⟨0, scale.measure d, ""⟩
  | date t => ⟨2, t.rank, ""⟩
  | text s => ⟨3, 0, Text.lowercase s⟩
  | tag s => ⟨4, 0, Text.lowercase s⟩
  | list items => ⟨5, 0, Text.lowercase (",".intercalate items)⟩
  | boolean b => ⟨6, b.toNat, ""⟩
  | empty => ⟨7, 0, ""⟩

variable {scale : Scale} {a b : Value}

theorem compareNumbers_eq {x y : Binary64} (left : x.isNaN = false) (right : y.isNaN = false) :
    compareNumbers x y = compare x.rank y.rank := by
  rw [compareNumbers, Binary64.compare?, left, right]
  rfl

/-- Values that are not blank are compared by their places. -/
theorem compareTo_eq (fitsLeft : scale.Fits a) (fitsRight : scale.Fits b)
    (presentLeft : a.isBlank = false) (presentRight : b.isBlank = false) :
    a.compareTo b = compare (a.place scale) (b.place scale) := by
  cases a with
  | number x =>
    cases scale with
    | seconds => exact fitsLeft.elim
    | numbers =>
      cases b with
      | number y =>
          rw [compareTo, compareNumbers_eq presentLeft presentRight]
          exact (Place.compare_position _ _ _ _).symm
      | duration e =>
          rw [compareTo, compareNumbers_eq presentLeft (Binary64.isNaN_ofInt _)]
          exact (Place.compare_position _ _ _ _).symm
      | _ => rfl
  | duration d =>
    cases b with
    | number y =>
      cases scale with
      | seconds => exact fitsRight.elim
      | numbers =>
          rw [compareTo, compareNumbers_eq (Binary64.isNaN_ofInt _) presentRight]
          exact (Place.compare_position _ _ _ _).symm
    | duration e =>
        rw [compareTo, place, place, Place.compare_position, Scale.compare_measure fitsLeft fitsRight]
    | _ => rfl
  | date t =>
    cases b with
    | date u => exact (Place.compare_position _ _ _ _).symm
    | _ => rfl
  | text s =>
    cases b with
    | text t => exact (Place.compare_text _ _ _ _).symm
    | _ => rfl
  | tag s =>
    cases b with
    | tag t => exact (Place.compare_text _ _ _ _).symm
    | _ => rfl
  | list items =>
    cases b with
    | list others => exact (Place.compare_text _ _ _ _).symm
    | _ => rfl
  | boolean x =>
    cases b with
    | boolean y => cases x <;> cases y <;> rfl
    | _ => rfl
  | empty => cases presentLeft

/-- The place that a value is sorted to, one place for all that are blank. -/
def sortedPlace (scale : Scale) (v : Value) : Place :=
  if v.isBlank then empty.place scale else v.place scale

end Value

namespace Direction

/-- A comparison in a direction. -/
def orient (d : Direction) (cmp : α → α → Ordering) : α → α → Ordering :=
  match d with
  | ascending => cmp
  | descending => fun a b => cmp b a

instance (d : Direction) (cmp : α → α → Ordering) [Std.TransCmp cmp] :
    Std.TransCmp (d.orient cmp) := by
  cases d with
  | ascending => exact inferInstanceAs (Std.TransCmp cmp)
  | descending => exact @Std.TransCmp.opposite _ cmp _

/-- Values are compared by whether they are blank, and then by their places. -/
theorem compareValues_eq {scale : Scale} {a b : Value} (d : Direction) (fitsLeft : scale.Fits a)
    (fitsRight : scale.Fits b) : d.compareValues a b =
      (compare a.isBlank b.isBlank).then
        (d.orient (compareOn (Value.sortedPlace scale)) a b) := by
  have places : a.isBlank = false → b.isBlank = false → a.compareTo b =
      compareOn (Value.sortedPlace scale) a b := by
    intro presentLeft presentRight
    rw [Value.compareTo_eq fitsLeft fitsRight presentLeft presentRight]
    simp only [compareOn, Value.sortedPlace, presentLeft, presentRight, Bool.false_eq_true, if_false]
  cases left : a.isBlank <;> cases right : b.isBlank
  · simp only [compareValues, left, right]
    rw [places left right]
    cases d with
    | ascending => rfl
    | descending => exact Std.OrientedCmp.eq_swap.symm
  · simp only [compareValues, left, right]
    rfl
  · simp only [compareValues, left, right]
    rfl
  · have same : a.sortedPlace scale = b.sortedPlace scale := by
      rw [Value.sortedPlace, Value.sortedPlace, if_pos left, if_pos right]
    have level : ∀ v w : Value, v.sortedPlace scale = w.sortedPlace scale →
        compareOn (Value.sortedPlace scale) v w = .eq := by
      intro v w alike
      rw [compareOn, alike, Std.ReflOrd.compare_self]
    simp only [compareValues, left, right]
    cases d with
    | ascending => exact (level a b same).symm
    | descending => exact (level b a same.symm).symm

theorem isBlank_of_isLE (d : Direction) {a b : Value}
    (upTo : (d.compareValues a b).isLE) (blank : a.isBlank = true) : b.isBlank = true := by
  cases next : b.isBlank with
  | true => rfl
  | false =>
      simp only [compareValues, blank, next] at upTo
      cases upTo

theorem isBlank_eq_false_of_isLE (d : Direction) {a b : Value}
    (upTo : (d.compareValues a b).isLE) (present : b.isBlank = false) : a.isBlank = false := by
  cases blank : a.isBlank with
  | false => rfl
  | true => rw [← present, d.isBlank_of_isLE upTo blank]

end Direction

/-- Whether the values of a field can all be measured on one scale: there is no number among
them, or every duration among them is representable as a number. -/
def Commensurable (records : List Record) (key : String) : Prop :=
  (∀ r ∈ records, ∀ x, r.value key ≠ .number x) ∨
    ∀ r ∈ records, ∀ seconds, r.value key = .duration seconds →
      seconds.toInt.natAbs ≤ Binary64.exactBound

theorem Commensurable.mono {records part : List Record} {key : String}
    (h : Commensurable records key) (subset : part ⊆ records) : Commensurable part key :=
  h.imp (fun noNumbers r mem => noNumbers r (subset mem))
    fun small r mem => small r (subset mem)

theorem Commensurable.exists_scale {records : List Record} {key : String}
    (h : Commensurable records key) : ∃ scale : Scale, ∀ r ∈ records, scale.Fits (r.value key) := by
  obtain noNumbers | small := h
  · refine ⟨.seconds, ?_⟩
    intro r mem
    have present := noNumbers r mem
    cases value : r.value key with
    | number x => exact present x value
    | _ => trivial
  · refine ⟨.numbers, ?_⟩
    intro r mem
    cases value : r.value key with
    | duration seconds => exact small r mem seconds value
    | _ => trivial

namespace SortKey

variable {records : List Record} {keys : List SortKey} {k : SortKey}

/-- A field whose values are measured on one scale orders the records. -/
theorem ordersAmong (fits : Commensurable records k.columnKey) :
    OrdersAmong records k.compareRecords := by
  obtain ⟨scale, fits⟩ := fits.exists_scale
  refine ⟨compareLex (compareOn fun r => (r.value k.columnKey).isBlank)
    (k.direction.orient (compareOn fun r => (r.value k.columnKey).sortedPlace scale)),
    inferInstance, ?_⟩
  intro a ha b hb
  rw [compareRecords, k.direction.compareValues_eq (fits a ha) (fits b hb)]
  cases k.direction <;> rfl

theorem compareRecords_ascending {key : String} {r s : Record}
    (left : (r.value key).isBlank = false) (right : (s.value key).isBlank = false) :
    compareRecords ⟨key, .ascending⟩ r s = (r.value key).compareTo (s.value key) := by
  simp only [compareRecords, Direction.compareValues, left, right]

/-- Records that are not blank are compared the other way round in the other direction. -/
theorem compareRecords_descending {key : String} {r s : Record}
    (order : OrdersAmong records (compareRecords ⟨key, .ascending⟩)) (hr : r ∈ records)
    (hs : s ∈ records) (left : (r.value key).isBlank = false)
    (right : (s.value key).isBlank = false) :
    compareRecords ⟨key, .descending⟩ r s = compareRecords ⟨key, .ascending⟩ s r := by
  rw [order.swap hs hr]
  simp only [compareRecords, Direction.compareValues, left, right]

theorem ordersAmong_all (fits : ∀ k ∈ keys, Commensurable records k.columnKey) :
    OrdersAmong records (compareByAll keys) := by
  induction keys with
  | nil => exact .indifferent records
  | cons k rest ih =>
      obtain ⟨here, later⟩ := List.forall_mem_cons.1 fits
      exact (ordersAmong here).lex (ih later)

/-- A number of seconds, or a duration that it cannot be told apart from as a number. -/
def closeWait (i : Nat) : Value :=
  match i % 3 with
  | 0 => .duration 0x20000000000000
  | 1 => .number (.ofInt 0x20000000000000)
  | _ => .duration 0x20000000000001

/-- Twenty-one records of such waits in turn. -/
def closeWaits : List Record :=
  (List.range 21).map fun i => (Record.empty (toString i)).set "wait" (closeWait i)

/-- The number ties with both durations, but they do not tie with each other. -/
theorem not_ordersAmong_closeWaits :
    ¬ OrdersAmong closeWaits (compareByAll [⟨"wait", .ascending⟩]) := by
  intro order
  have mem (i : Nat) (small : i < 21) :
      (Record.empty (toString i)).set "wait" (closeWait i) ∈ closeWaits :=
    List.mem_map_of_mem (List.mem_range.2 small)
  have first := mem 0 (by decide)
  have number := mem 1 (by decide)
  have last := mem 2 (by decide)
  have tied := order.eq_trans first number last (by decide +kernel) (by decide +kernel)
  exact absurd tied (by decide +kernel)

/-- Comparing records by several keys is a total preorder of any three records whose values
under each key are measured on one scale: whatever their kinds, blank or not, and whatever the
directions of the keys, a record ties with itself, swapping two records swaps the answer, and
neither "not after" nor "tied" depends on a record in between. -/
theorem compareByAll_preorder (keys : List SortKey) (a b c : Record)
    (fits : ∀ k ∈ keys, Commensurable [a, b, c] k.columnKey) :
    compareByAll keys a a = .eq ∧
      compareByAll keys a b = (compareByAll keys b a).swap ∧
      (compareByAll keys a b ≠ .gt → compareByAll keys b c ≠ .gt → compareByAll keys a c ≠ .gt) ∧
      (compareByAll keys a b = .eq → compareByAll keys b c = .eq →
        compareByAll keys a c = .eq) := by
  have order : OrdersAmong [a, b, c] (compareByAll keys) := ordersAmong_all fits
  have ha : a ∈ [a, b, c] := by simp
  have hb : b ∈ [a, b, c] := by simp
  have hc : c ∈ [a, b, c] := by simp
  refine ⟨order.refl ha, order.swap ha hb, ?_, order.eq_trans ha hb hc⟩
  intro ab bc
  exact Ordering.isLE_iff_ne_gt.1
    (order.trans ha hb hc (Ordering.ne_gt_iff_isLE.1 ab) (Ordering.ne_gt_iff_isLE.1 bc))

/-- A duration of 90 seconds, the number 90 and a missing value, and behind them both zeros
and a NaN. -/
theorem compareByAll_preorder_waits :
    let keys : List SortKey := [⟨"wait", .descending⟩, ⟨"amt", .ascending⟩]
    let a := ((Record.empty "1").set "wait" (.duration 90)).set "amt" (.number (.zero true))
    let b := ((Record.empty "2").set "wait" (.number (.ofInt 90))).set "amt" (.number (.zero false))
    let c := (Record.empty "3").set "amt" (.number .nan)
    (∀ k ∈ keys, Commensurable [a, b, c] k.columnKey) ∧
      compareByAll keys a b = .eq ∧ compareByAll keys b c ≠ .gt ∧
      compareByAll keys b a = (compareByAll keys a b).swap ∧ compareByAll keys a c ≠ .gt := by
  intro keys a b c
  have fits : ∀ k ∈ keys, Commensurable [a, b, c] k.columnKey := by
    intro k member
    refine .inr ?_
    intro r known seconds value
    have short : ∀ k ∈ keys, ∀ r ∈ [a, b, c], ∀ d, r.value k.columnKey = .duration d → d = 90 := by
      have apart : "wait" ≠ "amt" := by decide
      simp [keys, a, b, c, Record.value, Record.get?_set_of_ne _ apart, eq_comm]
    rw [short k member r known seconds value]
    decide
  have tied : compareByAll keys a b = .eq := by decide +kernel
  have before : compareByAll keys b c ≠ .gt := by decide +kernel
  obtain ⟨-, swapped, through, -⟩ := compareByAll_preorder keys a b c fits
  refine ⟨fits, tied, before, ?_, through (by simp [tied]) before⟩
  rw [swapped, Ordering.swap_swap]

theorem sort_pairwise (fits : ∀ k ∈ keys, Commensurable records k.columnKey) :
    (sort keys records).Pairwise fun a b => (compareByAll keys a b).isLE := by
  cases keys with
  | nil => exact List.pairwise_of_forall fun _ _ => rfl
  | cons k rest => exact (ordersAmong_all fits).pairwise_mergeSort

theorem sort_pairwise_first (fits : ∀ key ∈ k :: keys, Commensurable records key.columnKey) :
    (sort (k :: keys) records).Pairwise fun a b => (k.compareRecords a b).isLE :=
  (sort_pairwise fits).imp fun upTo => Ordering.isLE_left_of_isLE_then upTo

end SortKey

end TableView
