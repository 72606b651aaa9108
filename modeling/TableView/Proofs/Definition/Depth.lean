import TableView.Proofs.Definition.Finite

/-!
# Definitions are written no deeper than they are read

A filter has several spellings, and the one that it is written with is nested least. So the filters
of a page that was read have room where they were read from (`PageViews.depth_le_of_ofJson?`).
Only a filter that was left out is written deeper than it was read, and never to the limit.
-/

namespace TableView

open Json

variable {access : Access} {v : Json}

theorem Json.depth_pos_of_list? {decode : Json → Option α} {as : List α}
    (read : v.list? decode = some as) : 0 < v.depth := by
  cases v with
  | arr items => exact Nat.succ_pos _
  | _ => cases read

theorem Json.depth_pos_of_taggedFields? {tag : String} {names : List String}
    {parted : String × Json} (read : v.taggedFields? access tag names = some parted) :
    0 < v.depth := by
  cases v with
  | arr items => exact Nat.succ_pos _
  | obj members => exact Nat.succ_pos _
  | _ => cases read

theorem Json.depth_pos_of_taggedContent? {tag content : String} {names : List String}
    {tagged : Tagged} (read : v.taggedContent? access tag content names = some tagged) :
    0 < v.depth := by
  cases v with
  | arr items => exact Nat.succ_pos _
  | obj members => exact Nat.succ_pos _
  | _ => cases read

theorem NumberTest.depth_le_of_ofJson? {test : NumberTest} (read : ofJson? access v = some test) :
    test.toJson.depth ≤ v.depth := by
  have flat : test.toJson.depth = 1 := by cases test <;> rfl
  obtain ⟨parted, tagged, -⟩ := Option.bind_eq_some_iff.1 read
  rw [flat]
  exact depth_pos_of_taggedFields? tagged

theorem DateTest.depth_le_of_ofJson? {test : DateTest} (read : ofJson? access v = some test) :
    test.toJson.depth ≤ v.depth := by
  have flat : test.toJson.depth = 1 := by cases test <;> rfl
  obtain ⟨parted, tagged, -⟩ := Option.bind_eq_some_iff.1 read
  rw [flat]
  exact depth_pos_of_taggedFields? tagged

theorem TextTest.depth_le_of_ofJson? {test : TextTest} (read : ofJson? access v = some test) :
    test.toJson.depth ≤ v.depth := by
  have flat : test.toJson.depth = 1 := rfl
  obtain ⟨fields, spelled, read⟩ := Option.bind_eq_some_iff.1 read
  obtain ⟨operator, required, -⟩ := Option.bind_eq_some_iff.1 read
  obtain ⟨part, isPart, -⟩ := (all_isPart_of_fields? spelled).exists_of_required? required
  rw [flat]
  exact Nat.zero_lt_of_lt isPart.depth_lt

theorem Json.depth_ofStrings_le (ss : List String) : (ofStrings ss).depth ≤ 1 := by
  rw [ofStrings, ofList, depth_arr_le_iff]
  intro item mem
  obtain ⟨s, -, rfl⟩ := List.mem_map.1 mem
  exact Nat.le_refl 0

theorem TagTest.depth_toJson_le (test : TagTest) : test.toJson.depth ≤ 2 := by
  cases test <;>
    · rw [toJson, depth_obj_le_iff]
      simp [depth_ofStrings_le]

theorem TagTest.depth_le_of_ofJson? {test : TagTest} (read : ofJson? access v = some test) :
    test.toJson.depth ≤ v.depth := by
  obtain ⟨tagged, parted, read⟩ := Option.bind_eq_some_iff.1 read
  have listed : ∀ {make : List String → TagTest},
      (tagged.required? fun _ c => c.list? string?).map make = some test → 2 ≤ v.depth := by
    intro make found
    obtain ⟨tags, required, -⟩ := Option.map_eq_some_iff.1 found
    obtain ⟨part, content, decoded⟩ := Option.bind_eq_some_iff.1 required
    have inside := depth_pos_of_list? decoded
    have outside := (isPart_of_taggedContent? parted content).depth_lt
    omega
  have deep : 2 ≤ v.depth := by
    split at read
    · exact listed read
    · exact listed read
    · cases read
  exact test.depth_toJson_le.trans deep

/-- A condition with a test is nested one level deeper than the test. -/
theorem Json.depth_kind (kind : String) (test : Json) :
    (obj [("kind", str kind), ("condition", test)]).depth = test.depth + 1 := by
  simp [depth, membersDepth]

theorem Condition.depth_le_of_ofJson? {c : Condition} (read : ofJson? access v = some c) :
    c.toJson.depth ≤ v.depth := by
  obtain ⟨tagged, parted, read⟩ := Option.bind_eq_some_iff.1 read
  have tested : ∀ {β : Type} {decode : Access → Json → Option β} {make : β → Condition}
      {kind : String}, (tagged.required? decode).map make = some c → ∀ spell : β → Json,
      (∀ b, (make b).toJson = obj [("kind", str kind), ("condition", spell b)]) →
      (∀ by_ part b, decode by_ part = some b → (spell b).depth ≤ part.depth) →
      c.toJson.depth ≤ v.depth := by
    intro β decode make kind found spell spelled bound
    obtain ⟨b, required, rfl⟩ := Option.map_eq_some_iff.1 found
    obtain ⟨part, content, decoded⟩ := Option.bind_eq_some_iff.1 required
    rw [spelled, depth_kind]
    exact (Nat.succ_le_succ (bound _ part b decoded)).trans
      (isPart_of_taggedContent? parted content).depth_lt
  have bare : ∀ {value : Condition}, value.toJson.depth = 1 → tagged.bare? value = some c →
      c.toJson.depth ≤ v.depth := by
    intro value flat found
    obtain rfl := Tagged.eq_of_bare? found
    rw [flat]
    exact depth_pos_of_taggedContent? parted
  split at read
  · exact tested read NumberTest.toJson (fun _ => rfl) fun _ _ _ => NumberTest.depth_le_of_ofJson?
  · exact tested read NumberTest.toJson (fun _ => rfl) fun _ _ _ => NumberTest.depth_le_of_ofJson?
  · exact tested read TextTest.toJson (fun _ => rfl) fun _ _ _ => TextTest.depth_le_of_ofJson?
  · exact tested read TagTest.toJson (fun _ => rfl) fun _ _ _ => TagTest.depth_le_of_ofJson?
  · exact tested read DateTest.toJson (fun _ => rfl) fun _ _ _ => DateTest.depth_le_of_ofJson?
  · exact tested read Json.bool (fun _ => rfl) fun _ _ _ _ => Nat.zero_le _
  · exact bare rfl read
  · exact bare rfl read
  · cases read

/-- The key of a clause does not make it deeper than its condition. -/
theorem Clause.depth_toJson (c : Clause) : c.toJson.depth = c.condition.toJson.depth := by
  simp [toJson, Condition.toJson, depth, membersDepth]

theorem Clause.depth_le_of_ofMembers? {members : List (String × Json)} {c : Clause}
    (read : ofMembers? members = some c) : c.toJson.depth ≤ (obj members).depth := by
  have held : (obj (members.filter (·.1 != "columnKey"))).depth ≤ (obj members).depth := by
    refine (depth_obj_le_iff _).2 ?_
    intro m mem
    exact (membersDepth_le_iff members).1 (Nat.le_refl _) m (List.mem_filter.1 mem).1
  simp only [ofMembers?, Option.bind_eq_bind] at read
  split at read
  · simp only [Option.bind_eq_some_iff, Option.ite_none_right_eq_some, Option.some.injEq] at read
    obtain ⟨_, -, -, condition, decoded, rfl⟩ := read
    rw [depth_toJson]
    exact (Condition.depth_le_of_ofJson? decoded).trans held
  · cases read

namespace Filter

/-- A group is nested two levels deeper than its children: they stand in a list. -/
theorem depth_group_le_iff {combinator : Combinator} {children : List Filter} {room : Nat} :
    (group combinator children).toJson.depth ≤ room + 2 ↔
      ∀ f ∈ children, f.toJson.depth ≤ room := by
  rw [toJson, depth_obj_le_iff]
  simp [depth_arr_le_iff]

/-- What is read of a tree is written no deeper, and each item of what is read as a list less
deeply than the list. -/
theorem depth_le_of_ofReadable? (v : Json) :
    (∀ f, ofReadable? v = some f → f.toJson.depth ≤ v.depth) ∧
      ∀ fs, listOf? v = some fs → 0 < v.depth ∧ ∀ f ∈ fs, f.toJson.depth < v.depth := by
  induction v with
  | arr items ih =>
      refine ⟨by rintro f ⟨⟩, ?_⟩
      intro fs read
      refine ⟨Nat.succ_pos _, ?_⟩
      intro f mem
      rw [listOf?, ofReadableAll?_eq] at read
      obtain ⟨item, known, found⟩ := exists_of_mapM read mem
      exact ((ih item known).1 f found).trans_lt (IsPart.item known).depth_lt
  | obj members ih =>
      refine ⟨?_, by rintro fs ⟨⟩⟩
      intro f read
      rw [ofReadable?] at read
      split at read
      next c clauseRead =>
        obtain rfl := Option.some.inj read
        exact Clause.depth_le_of_ofMembers? clauseRead
      next =>
        split at read
        next combinator children _ childrenRead =>
          obtain rfl := Option.some.inj read
          obtain ⟨m, mem, found⟩ := exists_of_childrenOf? childrenRead
          obtain ⟨nested, inside⟩ := (ih m mem).2 children found
          have outside := (IsPart.member mem).depth_lt
          have room : (obj members).depth = (obj members).depth - 2 + 2 := by omega
          rw [room, depth_group_le_iff]
          intro f child
          have below := inside f child
          omega
        next => cases read
  | _ => exact ⟨by rintro f ⟨⟩, by rintro fs ⟨⟩⟩

theorem depth_le_of_ofJson? {f : Filter} (read : ofJson? v = some f) :
    f.toJson.depth ≤ v.depth := by
  obtain ⟨-, read⟩ := Option.ite_none_right_eq_some.1 read
  exact (depth_le_of_ofReadable? v).1 f read

end Filter

theorem View.depth_le_of_ofJson? {view : View} {room : Nat} (fits : v.depth ≤ room + 5)
    (read : ofJson? access v = some view) : view.filter.toJson.depth ≤ room + 4 := by
  simp only [ofJson?, Option.bind_eq_bind, Option.bind_eq_some_iff, Option.some.injEq] at read
  obtain ⟨fields, spelled, _, -, _, -, _, -, filter, readFilter, _, -, _, -, rfl⟩ := read
  obtain rfl | ⟨part, isPart, decoded⟩ :=
    (all_isPart_of_fields? spelled).exists_of_withDefault? readFilter
  · exact Filter.depth_group_le_iff.2 (by simp)
  · have within := isPart.depth_lt
    have kept := Filter.depth_le_of_ofJson? decoded
    show filter.toJson.depth ≤ room + 4
    omega

/-- The filters of a page that was read have room in the view, the list and the page. -/
theorem PageViews.depth_le_of_ofJson? {p : PageViews} {room : Nat} (fits : v.depth ≤ room + 7)
    (read : ofJson? access v = some p) : ∀ view ∈ p.views, view.filter.toJson.depth ≤ room + 4 := by
  simp only [ofJson?, Option.bind_eq_bind, Option.bind_eq_some_iff, Option.some.injEq] at read
  obtain ⟨fields, spelled, _, -, views, readViews, _, -, rfl⟩ := read
  obtain ⟨part, isPart, listed⟩ := (all_isPart_of_fields? spelled).exists_of_required? readViews
  intro view mem
  obtain ⟨item, isItem, decoded⟩ := exists_of_list? listed mem
  have outside := isPart.depth_lt
  have inside := isItem.depth_lt
  exact View.depth_le_of_ofJson? (by omega) decoded

end TableView
