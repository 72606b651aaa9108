import TableView.Binary64.Basic

/-!
# Comparing numbers, and numbers as lookup keys

Numbers that are not NaN are compared by their ranks, so that of two of them one is less or
they are equal. The word that stands for a number in a lookup is chosen to agree with that:
two numbers have one word exactly if they are equal or both NaN (`keyWord_eq_iff`).
-/

namespace TableView.Binary64

variable {x y : Binary64}

theorem compare?_eq (left : x.isNaN = false) (right : y.isNaN = false) :
    x.compare? y = some (compare x.rank y.rank) := by
  rw [compare?, left, right]
  rfl

theorem eq_iff (left : x.isNaN = false) (right : y.isNaN = false) :
    x.eq y = true ↔ x.rank = y.rank := by
  rw [eq, compare?_eq left right, beq_iff_eq, Option.some.injEq, Int.compare_eq_eq]

theorem lt_iff (left : x.isNaN = false) (right : y.isNaN = false) :
    x.lt y = true ↔ x.rank < y.rank := by
  rw [lt, compare?_eq left right, beq_iff_eq, Option.some.injEq, Int.compare_eq_lt]

theorem le_iff (left : x.isNaN = false) (right : y.isNaN = false) :
    x.le y = true ↔ x.rank ≤ y.rank := by
  rw [le, Bool.or_eq_true, lt_iff left right, eq_iff left right, Int.le_iff_lt_or_eq]

/-- Of two numbers the first is at most the second exactly if the second is not less. -/
theorem le_eq_not_lt (left : x.isNaN = false) (right : y.isNaN = false) :
    x.le y = !y.lt x := by
  rw [Bool.eq_iff_iff, le_iff left right, Bool.not_eq_true', ← Bool.not_eq_true,
    lt_iff right left, Int.not_lt]

theorem isNaN_of_eq (same : x.eq y = true) : x.isNaN = false ∧ y.isNaN = false := by
  cases left : x.isNaN <;> cases right : y.isNaN <;> simp_all [eq, compare?]

/-- Only the two zeros are of one rank and different. -/
theorem eq_of_rank_eq (nonzero : x.word ≠ 0) (same : x.rank = y.rank) : x = y := by
  obtain ⟨signX, wordX, boundX⟩ := x
  obtain ⟨signY, wordY, boundY⟩ := y
  simp only [rank] at same nonzero
  have word : wordX = wordY := by
    cases signX <;> cases signY <;> simp at same <;> omega
  have sign : signX = signY := by
    cases signX <;> cases signY <;> simp at same <;> first | rfl | omega
  subst word sign
  rfl

theorem rank_eq_zero_iff : x.rank = 0 ↔ x.word = 0 := by
  rw [rank]
  split <;> omega

theorem eq_zero_of_word (zero : x.word = 0) : x = .zero x.negative := by
  obtain ⟨negative, word, bound⟩ := x
  obtain rfl : word = 0 := zero
  rfl

theorem keyWord_lt (number : x.isNaN = false) : x.keyWord < 0xffffffffffffffff := by
  have bound : x.word ≤ infinityWord := by simpa [isNaN] using number
  rw [infinityWord] at bound
  simp only [keyWord, number, Bool.false_eq_true, if_false, bits]
  split
  · decide
  · split <;> omega

theorem rank_eq_of_keyWord (left : x.isNaN = false) (right : y.isNaN = false)
    (same : x.keyWord = y.keyWord) : x.rank = y.rank := by
  have boundLeft := x.word_lt
  have boundRight := y.word_lt
  simp only [keyWord, left, right, Bool.false_eq_true, if_false, bits] at same
  simp only [rank]
  cases signLeft : x.negative <;> cases signRight : y.negative <;>
    simp only [signLeft, signRight, Bool.false_eq_true, if_false, if_true] at same ⊢ <;>
    split at same <;> split at same <;> omega

theorem keyWord_eq_of_rank (left : x.isNaN = false) (right : y.isNaN = false)
    (same : x.rank = y.rank) : x.keyWord = y.keyWord := by
  by_cases zero : x.word = 0
  · have zeroRight : y.word = 0 := rank_eq_zero_iff.1 (same ▸ rank_eq_zero_iff.2 zero)
    simp only [keyWord, left, right, zero, zeroRight, Bool.false_eq_true, if_false, if_true]
  · rw [eq_of_rank_eq zero same]

/-- Numbers that are not NaN have one word exactly if they are equal. -/
theorem keyWord_eq_iff_eq (left : x.isNaN = false) (right : y.isNaN = false) :
    x.keyWord = y.keyWord ↔ x.eq y = true := by
  rw [eq_iff left right]
  exact ⟨rank_eq_of_keyWord left right, keyWord_eq_of_rank left right⟩

theorem keyWord_eq_iff : x.keyWord = y.keyWord ↔ x.sameKey y = true := by
  rw [sameKey, Bool.or_eq_true, Bool.and_eq_true]
  cases left : x.isNaN with
  | true =>
      cases right : y.isNaN with
      | true => simp [keyWord, left, right]
      | false =>
          have differs := keyWord_lt right
          have word : x.keyWord = 0xffffffffffffffff := by simp [keyWord, left]
          simp [eq, compare?, left, word, Nat.ne_of_gt differs]
  | false =>
      cases right : y.isNaN with
      | true =>
          have differs := keyWord_lt left
          have word : y.keyWord = 0xffffffffffffffff := by simp [keyWord, right]
          simp [eq, compare?, right, word, Nat.ne_of_lt differs]
      | false =>
          rw [keyWord_eq_iff_eq left right]
          simp

end TableView.Binary64
