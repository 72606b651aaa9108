import TableView.Proofs.Definition.Numbers
import TableView.Proofs.Instant.RoundTrip
import TableView.Proofs.Json.Nesting

/-!
# Filters read back

A filter that was written is read back with its numbers as they are read back, unless it is
nested too deeply or one of them is not read as a number (`Filter.ofJson?_reread`). Nothing
else can go wrong: what was written as a clause is read as that clause, and no group can be
read as a clause, because a group has no key. Where there is no number, the reader finds
neither a clause nor a group.
-/

namespace TableView

open Json

theorem TextOperator.ofJson?_name (access : Access) (o : TextOperator) :
    ofJson? access (str o.name) = some o := by
  cases o <;> rfl

theorem TextTest.ofJson?_toJson (access : Access) (test : TextTest) :
    ofJson? access test.toJson = some test := by
  simp [ofJson?, toJson, fields?, Fields.required?, TextOperator.ofJson?_name, string?]

theorem TagTest.ofJson?_toJson (access : Access) (test : TagTest) :
    ofJson? access test.toJson = some test := by
  cases test <;> simp [ofJson?, toJson, taggedContent?, name?, Tagged.required?]

@[simp] theorem Instant.ofJson?_text (t : Instant) : ofJson? (str t.text) = some t := by
  rw [ofJson?, string?, Option.bind_some, ofText?_text]

theorem DateTest.ofJson?_toJson (access : Access) (test : DateTest) :
    ofJson? access test.toJson = some test := by
  cases test <;>
    simp [ofJson?, toJson, taggedFields?, tagName?, isReadable, against?, range?, fields?,
      Fields.required?]

namespace Condition

/-- The tag and the content of a condition that has some. -/
theorem taggedContent?_test (access : Access) (kind : String) (test : Json) :
    (obj [("kind", str kind), ("condition", test)]).taggedContent? access "kind" "condition" names =
      some ⟨kind, some test, access⟩ := by
  simp [taggedContent?, name?]

theorem taggedContent?_bare (access : Access) (kind : String) :
    (obj [("kind", str kind)]).taggedContent? access "kind" "condition" names =
      some ⟨kind, none, access⟩ := by
  simp [taggedContent?, name?]

end Condition

namespace Filter

/-- What reads as the members of a group reads as that group, and not as a clause. -/
theorem ofReadable?_group (combinator : Combinator) (items : List Json) :
    ofReadable? (obj [("combinator", str combinator.name), ("children", arr items)]) =
      (ofReadableAll? items).map (group combinator) := by
  have noKey : Clause.ofMembers? [("combinator", str combinator.name), ("children", arr items)] =
      none := by
    simp [Clause.ofMembers?]
  have name : Combinator.ofMembers?
      [("combinator", str combinator.name), ("children", arr items)] = some combinator := by
    cases combinator <;> rfl
  have children : childrenOf? [("combinator", str combinator.name), ("children", arr items)] =
      ofReadableAll? items := by
    simp [childrenOf?, listOf?]
  simp only [ofReadable?, noKey, name, children]
  cases ofReadableAll? items <;> rfl

/-- Filters are read one by one, and one that is not read spoils all. -/
theorem ofReadableAll?_eq (items : List Json) : ofReadableAll? items = items.mapM ofReadable? := by
  induction items with
  | nil => simp [ofReadableAll?]
  | cons v rest ih =>
      rw [ofReadableAll?, ih, List.mapM_cons]
      cases ofReadable? v with
      | none => rfl
      | some f => cases rest.mapM ofReadable? <;> rfl

/-- What has no combinator is read as a clause or not at all. -/
theorem ofReadable?_of_no_combinator {members : List (String × Json)}
    (none : ∀ m ∈ members, m.1 ≠ "combinator") :
    ofReadable? (obj members) = (Clause.ofMembers? members).map clause := by
  have nothing : members.filter (·.1 == "combinator") = [] := by
    simpa using none
  have noGroup : Combinator.ofMembers? members = Option.none := by
    rw [Combinator.ofMembers?, nothing]
  rw [ofReadable?, noGroup]
  cases Clause.ofMembers? members <;> rfl

end Filter

variable [NumberReader] (access : Access)

@[simp] theorem Json.settled_ofStrings (ss : List String) :
    (ofStrings ss).settled = ofStrings ss := by
  simp [ofStrings, ofList]

@[simp] theorem TextTest.settled_toJson (test : TextTest) : test.toJson.settled = test.toJson := by
  simp [toJson]

@[simp] theorem TagTest.settled_toJson (test : TagTest) : test.toJson.settled = test.toJson := by
  cases test <;> simp [toJson]

@[simp] theorem DateTest.settled_toJson (test : DateTest) : test.toJson.settled = test.toJson := by
  cases test <;> simp [toJson]

/-- What has no value is not read as a number. -/
theorem Binary64.reread?_of_unreadable {x : Binary64} (unreadable : ¬(float x).settled.isReadable) :
    x.reread? = none := by
  obtain null | nothing | ⟨y, number, -⟩ := rereadLeaf_float_cases x
  · rw [reread?, null]
    rfl
  · rw [reread?, nothing]
    rfl
  · exact absurd (congrArg isReadable number) unreadable

namespace NumberTest

theorem taggedFields?_against (name : String) (x : Binary64) :
    (againstToJson name x).settled.taggedFields? access "op" names =
      if (float x).settled.isReadable then some (name, obj [("value", (float x).settled)])
      else none := by
  simp [againstToJson, taggedFields?, tagName?]

theorem taggedFields?_range (name : String) (least greatest : Binary64) :
    (rangeToJson name least greatest).settled.taggedFields? access "op" names =
      if (float least).settled.isReadable ∧ (float greatest).settled.isReadable then
        some (name, obj [("min", (float least).settled), ("max", (float greatest).settled)])
      else none := by
  simp [rangeToJson, taggedFields?, tagName?]

theorem against?_settled (x : Binary64) :
    against? (obj [("value", (float x).settled)]) = x.reread? := by
  simp [against?, fields?, Fields.required?]
  rfl

theorem range?_settled (least greatest : Binary64) :
    range? (obj [("min", (float least).settled), ("max", (float greatest).settled)]) =
      least.reread?.bind fun low => greatest.reread?.bind fun high => some (low, high) := by
  simp [range?, fields?, Fields.required?]
  rfl

theorem ofJson?_settled (test : NumberTest) :
    ofJson? access test.toJson.settled = test.reread? := by
  cases test with
  | equals x | notEquals x | greaterThan x | greaterThanOrEqual x | lessThan x
  | lessThanOrEqual x =>
      simp only [ofJson?, toJson, taggedFields?_against, reread?]
      by_cases readable : (float x).settled.isReadable = true
      · rw [if_pos readable, ← against?_settled]
        rfl
      · rw [if_neg readable, Binary64.reread?_of_unreadable readable]
        rfl
  | between x y | notBetween x y =>
      simp only [ofJson?, toJson, taggedFields?_range, reread?]
      by_cases readable : (float x).settled.isReadable = true ∧ (float y).settled.isReadable = true
      · simp only [if_pos readable, Option.bind_eq_bind, Option.bind_some, range?_settled]
        cases x.reread? <;> cases y.reread? <;> rfl
      · rw [if_neg readable]
        rcases not_and_or.1 readable with left | right
        · rw [Binary64.reread?_of_unreadable left]
          rfl
        · rw [Binary64.reread?_of_unreadable right]
          cases x.reread? <;> rfl

/-- What was written of a test can be held back if the test is read back. -/
theorem isReadable_settled {test : NumberTest} (read : test.reread?.isSome) :
    test.toJson.settled.isReadable = true := by
  have readable : ∀ x ∈ test.numbers, (float x).settled.isReadable = true := by
    intro x mem
    by_contra unreadable
    have number := isSome_reread?.1 read x mem
    rw [Binary64.reread?_of_unreadable unreadable] at number
    cases number
  cases test with
  | between x y | notBetween x y =>
      obtain ⟨left, right⟩ : (float x).settled.isReadable ∧ (float y).settled.isReadable := by
        simpa [numbers] using readable
      simp [toJson, rangeToJson, isReadable, left, right]
  | _ x =>
      have here : (float x).settled.isReadable := by simpa [numbers] using readable
      simp [toJson, againstToJson, isReadable, here]

end NumberTest

namespace Condition

theorem ofJson?_settled (c : Condition) : ofJson? access c.toJson.settled = c.reread? := by
  cases c with
  | number test | duration test =>
      simp only [ofJson?, toJson, members, settled_obj, List.map_cons, List.map_nil, settled_str,
        taggedContent?_test, Option.bind_eq_bind, Option.bind_some, Tagged.required?,
        NumberTest.ofJson?_settled]
      rfl
  | text test =>
      simp [ofJson?, toJson, members, taggedContent?_test, Tagged.required?,
        TextTest.ofJson?_toJson, reread?]
  | tag test =>
      simp [ofJson?, toJson, members, taggedContent?_test, Tagged.required?,
        TagTest.ofJson?_toJson, reread?]
  | date test =>
      simp [ofJson?, toJson, members, taggedContent?_test, Tagged.required?,
        DateTest.ofJson?_toJson, reread?]
  | boolean expected =>
      simp [ofJson?, toJson, members, taggedContent?_test, Tagged.required?, bool?, reread?]
  | isEmpty | isNotEmpty =>
      simp [ofJson?, toJson, members, taggedContent?_bare, Tagged.bare?, reread?]

theorem isReadable_settled {c : Condition} (read : c.reread?.isSome) :
    c.toJson.settled.isReadable = true := by
  cases c with
  | number test | duration test =>
      have here : test.reread?.isSome := by simpa [reread?] using read
      simp [toJson, members, isReadable, NumberTest.isReadable_settled here]
  | text test => simp [toJson, members, TextTest.toJson, isReadable]
  | tag test => cases test <;> simp [toJson, members, TagTest.toJson, ofStrings, ofList, isReadable]
  | date test => cases test <;> simp [toJson, members, DateTest.toJson, isReadable]
  | boolean expected => simp [toJson, members, isReadable]
  | isEmpty | isNotEmpty => simp [toJson, members, isReadable]

/-- The members that are read back of a condition. -/
def written (c : Condition) : List (String × Json) := c.members.map fun m => (m.1, m.2.settled)

theorem settled_toJson (c : Condition) : c.toJson.settled = obj c.written := settled_obj c.members

/-- A condition has no members but its tag and its content. -/
theorem key_of_mem_written {c : Condition} {m : String × Json} (member : m ∈ c.written) :
    m.1 = "kind" ∨ m.1 = "condition" := by
  have keys : ∀ m ∈ c.members, m.1 = "kind" ∨ m.1 = "condition" := by
    cases c <;> simp [members]
  obtain ⟨n, here, same⟩ := List.mem_map.1 member
  have key := keys n here
  rwa [← same]

end Condition

namespace Clause

/-- The members that are read back of a clause. -/
def written (c : Clause) : List (String × Json) :=
  ("columnKey", str c.columnKey) :: c.condition.written

theorem settled_toJson (c : Clause) : c.toJson.settled = obj c.written := by
  simp [toJson, written, Condition.written]

theorem key_of_mem_written {c : Clause} {m : String × Json} (member : m ∈ c.written) :
    m.1 = "columnKey" ∨ m.1 = "kind" ∨ m.1 = "condition" := by
  rcases List.mem_cons.1 member with rfl | rest
  · exact .inl rfl
  · exact .inr (Condition.key_of_mem_written rest)

/-- A clause is read back with the numbers of its condition. -/
theorem ofMembers?_written (c : Clause) : ofMembers? c.written =
    c.condition.reread?.map fun condition => ⟨c.columnKey, condition⟩ := by
  have others : ∀ m ∈ c.condition.written, m.1 ≠ "columnKey" := by
    intro m member
    obtain key | key := Condition.key_of_mem_written member <;> simp [key]
  have key : c.written.filter (·.1 == "columnKey") = [("columnKey", str c.columnKey)] := by
    rw [written, List.filter_cons_of_pos (by simp), List.filter_eq_nil_iff.2]
    simpa using others
  have held : c.written.filter (·.1 != "columnKey") = c.condition.written := by
    rw [written, List.filter_cons_of_neg (by simp), List.filter_eq_self.2]
    simpa using others
  have condition := Condition.ofJson?_settled .held c.condition
  rw [Condition.settled_toJson] at condition
  rw [ofMembers?]
  simp only [key, held, condition, string?, Option.bind_eq_bind, Option.bind_some]
  cases read : c.condition.reread? with
  | none => simp
  | some condition =>
      have readable : haveReadable c.condition.written = true := by
        have whole := Condition.isReadable_settled (Option.isSome_of_eq_some read)
        rwa [Condition.settled_toJson] at whole
      rw [if_pos readable]
      rfl

theorem isReadable_settled {c : Clause} (read : c.condition.reread?.isSome) :
    c.toJson.settled.isReadable = true := by
  have held := Condition.isReadable_settled read
  rw [Condition.settled_toJson] at held
  rw [settled_toJson]
  exact held

end Clause

namespace Filter

theorem settled_group (combinator : Combinator) (children : List Filter) :
    (group combinator children).toJson.settled =
      obj [("combinator", str combinator.name),
        ("children", arr (children.map fun f => f.toJson.settled))] := by
  simp [toJson]

theorem isReadable_settled {f : Filter} (read : f.reread?.isSome) :
    f.toJson.settled.isReadable = true := by
  induction f with
  | clause c =>
      rw [reread?, Option.isSome_map] at read
      exact Clause.isReadable_settled read
  | group combinator children ih =>
      rw [reread?, rereadAll?_eq, Option.isSome_map, isSome_mapM] at read
      have inside : (children.map fun f => f.toJson.settled).all isReadable = true := by
        rw [List.all_map, List.all_eq_true]
        exact fun f member => ih f member (read f member)
      rw [settled_group]
      simp only [isReadable, haveReadable, areReadable_eq, inside, Bool.and_self]

theorem ofReadable?_settled (f : Filter) : ofReadable? f.toJson.settled = f.reread? := by
  induction f with
  | clause c =>
      have noCombinator : ∀ m ∈ c.written, m.1 ≠ "combinator" := by
        intro m member
        obtain key | key | key := Clause.key_of_mem_written member <;> simp [key]
      rw [toJson, c.settled_toJson, ofReadable?_of_no_combinator noCombinator,
        c.ofMembers?_written, reread?, Option.map_map]
      rfl
  | group combinator children ih =>
      rw [settled_group, ofReadable?_group, ofReadableAll?_eq, mapM_map ih, reread?, rereadAll?_eq]

/-- A filter is read back with its numbers if it is not nested too deeply. -/
theorem ofJson?_reread (room : Nat) (f : Filter) :
    ofJson? (f.toJson.reread room) = if f.toJson.depth ≤ room then f.reread? else none := by
  by_cases fits : f.toJson.depth ≤ room
  · rw [reread_eq_settled fits, if_pos fits, ofJson?, ofReadable?_settled]
    cases read : f.reread? with
    | none => exact ite_self _
    | some g => rw [if_pos (isReadable_settled (Option.isSome_of_eq_some read))]
  · have unreadable : ¬ (f.toJson.reread room).isReadable := by
      intro readable
      exact fits (depth_le_of_isReadable readable)
    rw [ofJson?, if_neg unreadable, if_neg fits]

end Filter

end TableView
