import TableView.Group
import TableView.Proofs.Binary64.Key
import TableView.Proofs.Group.Partition
import TableView.Proofs.Instant.Timestamp

/-!
# Looking up the group of a value

Two values belong to one group if both are blank, if they are equal numbers, or if they are
the same value (`Value.GroupsWith`). A table of groups finds this out by keys in which
numbers are compared as numbers and hashed by one word for each of them, and instants are
split into seconds and nanoseconds. The keys are lawful for a table, and they agree exactly
where the values belong to one group (`Value.lookupKey_beq_iff`).
-/

namespace TableView

/-- Whether two values belong to one group. -/
inductive Value.GroupsWith : Value → Value → Prop where
  | blank {v w : Value} (left : v.isBlank = true) (right : w.isBlank = true) : GroupsWith v w
  | numbers {x y : Binary64} (equal : x.eq y = true) : GroupsWith (number x) (number y)
  | same (v : Value) : GroupsWith v v

/-- What a value is looked up by. -/
inductive LookupKey where
  | blank
  | text (s : String)
  | number (x : Binary64)
  | boolean (b : Bool)
  | date (seconds : Int) (nanosecond : Nat)
  | duration (seconds : Int64)
  | tag (s : String)
  | list (items : List String)

/-- The key of a value. -/
def Value.lookupKey (v : Value) : LookupKey :=
  if v.isBlank then .blank
  else match v with
    | empty => .blank
    | text s => .text s
    | number x => .number x
    | boolean b => .boolean b
    | date t => .date t.timestamp t.time.nanosecond
    | duration seconds => .duration seconds
    | tag s => .tag s
    | list items => .list items

namespace LookupKey

/-- Whether two keys are the same. -/
def same : LookupKey → LookupKey → Bool
  | blank, blank => true
  | text s, text t => s == t
  | number x, number y => x.sameKey y
  | boolean b, boolean c => b == c
  | date s n, date t m => s == t && n == m
  | duration s, duration t => s == t
  | tag s, tag t => s == t
  | list items, list others => items == others
  | _, _ => false

instance : BEq LookupKey := ⟨same⟩

/-- The hash of a key: its kind, and for a number the word of it. -/
def hashWord : LookupKey → UInt64
  | blank => 0
  | text s => mixHash 1 (hash s)
  | number x => mixHash 2 (hash x.keyWord)
  | boolean b => mixHash 3 (hash b)
  | date seconds nanosecond => mixHash 4 (mixHash (hash seconds) (hash nanosecond))
  | duration seconds => mixHash 5 (hash seconds)
  | tag s => mixHash 6 (hash s)
  | list items => mixHash 7 (hash items)

instance : Hashable LookupKey := ⟨hashWord⟩

variable {k l : LookupKey}

/-- Keys that are the same and yet different are numbers of one word. -/
theorem beq_iff : (k == l) = true ↔
    k = l ∨ ∃ x y : Binary64, k = number x ∧ l = number y ∧ x.keyWord = y.keyWord := by
  show k.same l = true ↔ _
  cases k with
  | number x =>
      cases l with
      | number y =>
          simp only [same, ← Binary64.keyWord_eq_iff, number.injEq, exists_eq_left', exists_and_left]
          exact ⟨.inr, fun alike => alike.elim (congrArg _) id⟩
      | _ => simp [same]
  | _ => cases l <;> simp [same]

instance : EquivBEq LookupKey where
  rfl := beq_iff.2 (.inl rfl)
  symm := by
    intro k l h
    obtain rfl | ⟨x, y, rfl, rfl, word⟩ := beq_iff.1 h
    · exact h
    · exact beq_iff.2 (.inr ⟨y, x, rfl, rfl, word.symm⟩)
  trans := by
    intro k l m first second
    obtain rfl | ⟨x, y, rfl, rfl, word⟩ := beq_iff.1 first
    · exact second
    · obtain rfl | ⟨y', z, same, rfl, next⟩ := beq_iff.1 second
      · exact first
      · cases same
        exact beq_iff.2 (.inr ⟨x, z, rfl, rfl, word.trans next⟩)

/-- Keys that are the same have one hash. -/
instance : LawfulHashable LookupKey where
  hash_eq := by
    intro k l h
    obtain rfl | ⟨x, y, rfl, rfl, word⟩ := beq_iff.1 h
    · rfl
    · show mixHash 2 (hash x.keyWord) = mixHash 2 (hash y.keyWord)
      rw [word]

end LookupKey

namespace Value

variable {v w : Value}

theorem lookupKey_eq_blank_iff : v.lookupKey = .blank ↔ v.isBlank = true := by
  rw [lookupKey.eq_def]
  split
  next blank => simp [blank]
  next present => cases v <;> simp_all [isBlank, isEmpty]

theorem lookupKey_beq_iff : (v.lookupKey == w.lookupKey) = true ↔ v.groupKey = w.groupKey := by
  rw [LookupKey.beq_iff]
  cases left : v.isBlank with
  | true =>
      rw [lookupKey_eq_blank_iff.2 left, groupKey_eq_blank_iff.2 left, eq_comm,
        lookupKey_eq_blank_iff, eq_comm (a := GroupKey.blank), groupKey_eq_blank_iff]
      simp
  | false =>
      cases right : w.isBlank with
      | true =>
          rw [lookupKey_eq_blank_iff.2 right, groupKey_eq_blank_iff.2 right,
            lookupKey_eq_blank_iff, groupKey_eq_blank_iff]
          simp
      | false =>
          have instants : ∀ t u : Instant,
              t.timestamp = u.timestamp ∧ t.time.nanosecond = u.time.nanosecond ↔ t = u :=
            fun t u => ⟨fun same => Instant.eq_of_timestamp same.1 same.2, by rintro rfl; simp⟩
          have words : ∀ x y : Binary64, x = y ∨ x.keyWord = y.keyWord ↔ x.keyWord = y.keyWord :=
            fun x y => or_iff_right_of_imp (congrArg _)
          cases v <;> cases w <;> simp [lookupKey, groupKey, left, right, instants, words]

theorem groupKey_eq_iff : v.groupKey = w.groupKey ↔ v.GroupsWith w := by
  constructor
  · intro h
    cases left : v.isBlank with
    | true =>
        have right := groupKey_eq_blank_iff.1 (h ▸ groupKey_eq_blank_iff.2 left)
        exact .blank left right
    | false =>
        have right : w.isBlank = false := by
          rw [← Bool.not_eq_true, ← groupKey_eq_blank_iff, ← h, groupKey_eq_blank_iff,
            Bool.not_eq_true]
          exact left
        cases v with
        | empty => cases left
        | number x =>
            cases w with
            | number y =>
                have word : x.keyWord = y.keyWord := by simpa [groupKey, left, right] using h
                exact .numbers ((Binary64.keyWord_eq_iff_eq left right).1 word)
            | _ => simp [groupKey, left, right] at h
        | _ =>
            cases w <;> simp [groupKey, left, right] at h
            all_goals
              subst h
              exact .same _
  · rintro (⟨left, right⟩ | equal | v)
    · rw [groupKey_eq_blank_iff.2 left, groupKey_eq_blank_iff.2 right]
    · obtain ⟨left, right⟩ := Binary64.isNaN_of_eq equal
      have word := (Binary64.keyWord_eq_iff_eq left right).2 equal
      simp [groupKey, isBlank, left, right, word]
    · rfl

end Value

end TableView
