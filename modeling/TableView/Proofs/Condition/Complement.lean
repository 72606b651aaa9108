import TableView.Condition.Matching
import TableView.Proofs.Binary64.Key
import TableView.Proofs.Binary64.Whole

/-!
# Complementary conditions

Most conditions have a complement, which asks for the opposite. It is not the negation:
of a value that a condition cannot decide, because it is blank or of another kind, both
the condition and its complement are false. The values that a condition decides are
those that meet exactly one of the two (`accepts_complement`, `accepts_of_not_decides`).

A list meets a comparison if some item does, and a denied one if no item meets what it
denies, which is what makes the law hold of lists too.
-/

namespace TableView

namespace NumberTest

/-- The test for the opposite. -/
def complement : NumberTest → NumberTest
  | equals value => notEquals value
  | notEquals value => equals value
  | greaterThan value => lessThanOrEqual value
  | greaterThanOrEqual value => lessThan value
  | lessThan value => greaterThanOrEqual value
  | lessThanOrEqual value => greaterThan value
  | between least greatest => notBetween least greatest
  | notBetween least greatest => between least greatest

/-- Whether the bounds of the test are numbers; a test for equality has none. -/
def isBounded : NumberTest → Bool
  | equals _ => true
  | notEquals _ => true
  | greaterThan value => !value.isNaN
  | greaterThanOrEqual value => !value.isNaN
  | lessThan value => !value.isNaN
  | lessThanOrEqual value => !value.isNaN
  | between least greatest => !least.isNaN && !greatest.isNaN
  | notBetween least greatest => !least.isNaN && !greatest.isNaN

/-- The test for the opposite, if there is one: nothing is on either side of NaN. -/
def complement? (test : NumberTest) : Option NumberTest :=
  if test.isBounded then some test.complement else none

variable {test opposite : NumberTest} {x : Binary64}

/-- A number passes one of two complementary tests, however the ends of a range are ordered. -/
theorem accepts_complement (found : test.complement? = some opposite) (number : x.isNaN = false) :
    opposite.accepts x = !test.accepts x := by
  obtain ⟨bounded, rfl⟩ : test.isBounded = true ∧ test.complement = opposite := by
    simpa [complement?] using found
  cases test with
  | equals value => simp [complement, accepts, number]
  | notEquals value => simp [complement, accepts, number]
  | greaterThan value =>
      have bound : value.isNaN = false := by simpa [isBounded] using bounded
      simp [complement, accepts, number, Binary64.le_eq_not_lt number bound]
  | greaterThanOrEqual value =>
      have bound : value.isNaN = false := by simpa [isBounded] using bounded
      simp [complement, accepts, number, Binary64.le_eq_not_lt bound number]
  | lessThan value =>
      have bound : value.isNaN = false := by simpa [isBounded] using bounded
      simp [complement, accepts, number, Binary64.le_eq_not_lt bound number]
  | lessThanOrEqual value =>
      have bound : value.isNaN = false := by simpa [isBounded] using bounded
      simp [complement, accepts, number, Binary64.le_eq_not_lt number bound]
  | between least greatest =>
      obtain ⟨low, high⟩ : least.isNaN = false ∧ greatest.isNaN = false := by
        simpa [isBounded] using bounded
      simp [complement, accepts, number, Binary64.le_eq_not_lt low number,
        Binary64.le_eq_not_lt number high]
  | notBetween least greatest =>
      obtain ⟨low, high⟩ : least.isNaN = false ∧ greatest.isNaN = false := by
        simpa [isBounded] using bounded
      simp [complement, accepts, number, Binary64.le_eq_not_lt low number,
        Binary64.le_eq_not_lt number high]

theorem accepts_of_isNaN (test : NumberTest) (nan : x.isNaN = true) : test.accepts x = false := by
  simp [accepts, nan]

end NumberTest

/-- The comparison for the opposite; a text that does not begin in some way cannot be asked for. -/
def TextOperator.complement? : TextOperator → Option TextOperator
  | contains => some notContains
  | notContains => some contains
  | equals => some notEquals
  | notEquals => some equals
  | beginsWith => none
  | endsWith => none

namespace TextTest

/-- The test for the opposite, if there is one. -/
def complement? (test : TextTest) : Option TextTest :=
  test.operator.complement?.map fun operator => { test with operator := operator }

variable {test opposite : TextTest}

theorem accepts_complement (found : test.complement? = some opposite) (s : String) :
    opposite.accepts s = !test.accepts s := by
  obtain ⟨operator, value⟩ := test
  obtain ⟨other, negated, rfl⟩ := Option.map_eq_some_iff.1 found
  cases operator <;> cases negated <;> simp [accepts, TextOperator.holds]

theorem acceptsList_complement (found : test.complement? = some opposite) (items : List String) :
    opposite.acceptsList items = !test.acceptsList items := by
  obtain ⟨operator, value⟩ := test
  obtain ⟨other, negated, rfl⟩ := Option.map_eq_some_iff.1 found
  cases operator <;> cases negated <;> simp [acceptsList, TextOperator.denied?]

end TextTest

namespace TagTest

/-- The test for the opposite. -/
def complement : TagTest → TagTest
  | oneOf tags => noneOf tags
  | noneOf tags => oneOf tags

theorem accepts_complement (test : TagTest) (tag : String) :
    test.complement.accepts tag = !test.accepts tag := by
  cases test <;> simp [complement, accepts]

theorem acceptsList_complement (test : TagTest) (items : List String) :
    test.complement.acceptsList items = !test.acceptsList items := by
  cases test <;> simp [complement, acceptsList]

end TagTest

namespace Condition

/-- The condition for the opposite, if there is one. No condition on an instant has one. -/
def complement? : Condition → Option Condition
  | number test => test.complement?.map number
  | duration test => test.complement?.map duration
  | text test => test.complement?.map text
  | tag test => some (tag test.complement)
  | date _ => none
  | boolean expected => some (boolean !expected)
  | isEmpty => some isNotEmpty
  | isNotEmpty => some isEmpty

/-- Whether the condition looks at values of a kind. A text condition reads tags and a tag
condition texts, and both read lists; a duration may be a plain number. -/
def reads : Condition → ValueKind → Bool
  | number _, kind => kind = .number
  | duration _, kind => kind = .duration || kind = .number
  | text _, kind => kind = .text || kind = .tag || kind = .list
  | tag _, kind => kind = .text || kind = .tag || kind = .list
  | date _, kind => kind = .date
  | boolean _, kind => kind = .boolean
  | isEmpty, _ => true
  | isNotEmpty, _ => true

/-- Whether the condition asks if there is a value at all. -/
def asksPresence : Condition → Bool
  | isEmpty => true
  | isNotEmpty => true
  | _ => false

/-- Whether a value tells the condition from its complement. A condition on presence is decided by
every value, any other by what is not blank and of a kind that it reads. -/
def decides (c : Condition) (v : Value) : Bool :=
  c.asksPresence || (!v.isBlank && v.kind?.any c.reads)

variable {c d : Condition} {v : Value}

theorem accepts_eq (other : c.asksPresence = false) :
    c.accepts v = (!v.isEmpty && c.acceptsPresent v) := by
  cases c <;> first | rfl | cases other

/-- A condition on what a value is like tests every value that is not blank. -/
theorem accepts_of_present (other : c.asksPresence = false) (present : v.isBlank = false) :
    c.accepts v = c.acceptsPresent v := by
  rw [accepts_eq other, Value.isEmpty_of_not_isBlank present, Bool.not_false, Bool.true_and]

theorem acceptsPresent_of_not_reads (unread : v.kind?.any c.reads = false) :
    c.acceptsPresent v = false := by
  cases c <;> cases v <;> first | rfl | cases unread

/-- A blank value meets no condition but those on presence. -/
theorem accepts_of_isBlank (other : c.asksPresence = false) (blank : v.isBlank = true) :
    c.accepts v = false := by
  rw [accepts_eq other]
  cases v with
  | number x =>
      -- NaN is delivered and yet blank: here it is the test that fails.
      cases c <;> first | rfl | exact NumberTest.accepts_of_isNaN _ blank
  | _ => simp_all [Value.isBlank]

/-- A value that does not decide a condition does not meet it. -/
theorem accepts_of_not_decides (undecided : c.decides v = false) : c.accepts v = false := by
  obtain ⟨other, unreadable⟩ := Bool.or_eq_false_iff.1 undecided
  rcases Bool.and_eq_false_iff.1 unreadable with blank | unread
  · exact accepts_of_isBlank other (by simpa using blank)
  · rw [accepts_eq other, acceptsPresent_of_not_reads unread, Bool.and_false]

/-- Complementary conditions read the same kinds, and both ask for presence or neither does. -/
theorem complement?_alike (found : c.complement? = some d) :
    d.asksPresence = c.asksPresence ∧ d.reads = c.reads := by
  cases c with
  | number test | duration test | text test =>
      obtain ⟨opposite, -, rfl⟩ := Option.map_eq_some_iff.1 found
      exact ⟨rfl, rfl⟩
  | date test => cases found
  | tag test | boolean expected | isEmpty | isNotEmpty =>
      obtain rfl := Option.some.inj found
      exact ⟨rfl, rfl⟩

theorem decides_complement (found : c.complement? = some d) : d.decides v = c.decides v := by
  obtain ⟨presence, kinds⟩ := complement?_alike found
  rw [decides, decides, presence, kinds]

/-- What is not blank and of a kind that a condition reads passes either the condition's test or
the one for the opposite. -/
theorem acceptsPresent_complement (found : c.complement? = some d) (other : c.asksPresence = false)
    (present : v.isBlank = false) (read : v.kind?.any c.reads = true) :
    d.acceptsPresent v = !c.acceptsPresent v := by
  cases c with
  | number test =>
      obtain ⟨opposite, known, rfl⟩ := Option.map_eq_some_iff.1 found
      cases v with
      | number x => exact NumberTest.accepts_complement known present
      | _ => cases read
  | duration test =>
      obtain ⟨opposite, known, rfl⟩ := Option.map_eq_some_iff.1 found
      cases v with
      | number x => exact NumberTest.accepts_complement known present
      | duration seconds => exact NumberTest.accepts_complement known (Binary64.isNaN_ofInt _)
      | _ => cases read
  | text test =>
      obtain ⟨opposite, known, rfl⟩ := Option.map_eq_some_iff.1 found
      cases v with
      | text s => exact TextTest.accepts_complement known s
      | tag s => exact TextTest.accepts_complement known s
      | list items => exact TextTest.acceptsList_complement known items
      | _ => cases read
  | tag test =>
      obtain rfl := Option.some.inj found
      cases v with
      | text s => exact test.accepts_complement s
      | tag s => exact test.accepts_complement s
      | list items => exact test.acceptsList_complement items
      | _ => cases read
  | date test => cases found
  | boolean expected =>
      obtain rfl := Option.some.inj found
      cases v with
      | boolean b => cases expected <;> cases b <;> rfl
      | _ => cases read
  | isEmpty => cases other
  | isNotEmpty => cases other

/-- A value that decides a condition meets either the condition or its complement. -/
theorem accepts_complement (found : c.complement? = some d) (decided : c.decides v = true) :
    d.accepts v = !c.accepts v := by
  cases asked : c.asksPresence with
  | true =>
      cases c with
      | isEmpty | isNotEmpty =>
          obtain rfl := Option.some.inj found
          simp
      | _ => cases asked
  | false =>
      obtain ⟨present, read⟩ : v.isBlank = false ∧ v.kind?.any c.reads = true := by
        simpa [decides, asked] using decided
      rw [accepts_of_present asked present,
        accepts_of_present ((complement?_alike found).1.trans asked) present]
      exact acceptsPresent_complement found asked present read

end Condition

end TableView
