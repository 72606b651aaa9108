import TableView.Json.Decode
import TableView.Proofs.ItemByItem

/-!
# Trees as JSON has them

What is spelled of a tree is not always the tree: JSON has no number that is not finite, and
null stands in its place, and the members of an object may come in any order (`Spelled`). A
decoder reads a value back from a tree if it finds the value in all that may be spelled of it
(`ReadsBack`). What a decoder sees first differs among them: a content that stands before its
tag is held back until the tag is known.
-/

namespace TableView.Json

mutual

/-- Whether a tree is what is spelled of another one. -/
inductive Spelled : Json → Json → Prop where
  | null : Spelled null null
  | bool (b : Bool) : Spelled (bool b) (bool b)
  | int (i : Int) : Spelled (int i) (int i)
  | str (s : String) : Spelled (str s) (str s)
  | float {x : Binary64} (finite : x.isFinite = true) : Spelled (float x) (float x)
  | notFinite {x : Binary64} (notFinite : x.isFinite = false) : Spelled (float x) null
  | unreadable : Spelled unreadable null
  | arr {items spelled : List Json} (each : List.Forall₂ Spelled items spelled) :
      Spelled (arr items) (arr spelled)
  | obj {members inOrder spelled : List (String × Json)}
      (each : List.Forall₂ SpelledMember members inOrder) (perm : inOrder.Perm spelled) :
      Spelled (obj members) (obj spelled)

/-- Whether a member is what is spelled of another one. -/
inductive SpelledMember : String × Json → String × Json → Prop where
  | mk (key : String) {v w : Json} (value : Spelled v w) : SpelledMember (key, v) (key, w)

end

variable {v w part : Json} {items : List Json} {key name tag content : String}
  {members rest spelled : List (String × Json)} {names : List String} {access : Access}

theorem SpelledMember.key_eq {m n : String × Json} (h : SpelledMember m n) : m.1 = n.1 := by
  cases h
  rfl

theorem SpelledMember.value {m n : String × Json} (h : SpelledMember m n) : Spelled m.2 n.2 := by
  cases h with
  | mk key value => exact value

namespace Spelled

/-- Something is spelled of every tree, so what is read back is read from some tree. -/
theorem exists_spelled (v : Json) : ∃ w, Spelled v w := by
  induction v with
  | null => exact ⟨_, .null⟩
  | bool b => exact ⟨_, .bool b⟩
  | int i => exact ⟨_, .int i⟩
  | str s => exact ⟨_, .str s⟩
  | float x =>
      cases finite : x.isFinite with
      | true => exact ⟨_, .float finite⟩
      | false => exact ⟨_, .notFinite finite⟩
  | unreadable => exact ⟨_, .unreadable⟩
  | arr items ih =>
      choose! spell spelled using ih
      exact ⟨_, .arr (List.forall₂_map_right_iff.2 (List.forall₂_same.2 spelled))⟩
  | obj members ih =>
      choose! spell spelled using ih
      have each : List.Forall₂ SpelledMember members (members.map fun m => (m.1, spell m)) :=
        List.forall₂_map_right_iff.2 (List.forall₂_same.2 fun m mem => .mk m.1 (spelled m mem))
      exact ⟨_, .obj each (.refl _)⟩

theorem of_arr (h : Spelled (Json.arr items) w) :
    ∃ spelled, w = Json.arr spelled ∧ List.Forall₂ Spelled items spelled := by
  cases h with
  | arr each => exact ⟨_, rfl, each⟩

theorem of_obj (h : Spelled (Json.obj members) w) : ∃ inOrder spelled, w = Json.obj spelled ∧
    List.Forall₂ SpelledMember members inOrder ∧ inOrder.Perm spelled := by
  cases h with
  | obj each perm => exact ⟨_, _, rfl, each, perm⟩

theorem isReadable (h : Spelled v w) : w.isReadable = true := by
  induction v generalizing w with
  | arr items ih =>
      obtain ⟨spelled, rfl, each⟩ := h.of_arr
      rw [Json.isReadable, areReadable_eq, List.all_eq_true]
      intro other mem
      obtain ⟨item, known, here⟩ := exists_of_forall₂ each mem
      exact ih item known here
  | obj members ih =>
      obtain ⟨inOrder, spelled, rfl, each, perm⟩ := h.of_obj
      rw [Json.isReadable, haveReadable_eq, List.all_eq_true]
      intro m mem
      obtain ⟨n, known, here⟩ := exists_of_forall₂ each (perm.mem_iff.2 mem)
      exact ih n known here.value
  | _ => cases h <;> rfl

theorem length_eq (h : Spelled (Json.obj members) (Json.obj spelled)) :
    members.length = spelled.length := by
  obtain ⟨inOrder, _, same, each, perm⟩ := h.of_obj
  cases same
  exact each.length_eq.trans perm.length_eq

theorem filter (h : Spelled (Json.obj members) (Json.obj spelled)) (keep : String → Bool) :
    Spelled (Json.obj (members.filter (keep ·.1))) (Json.obj (spelled.filter (keep ·.1))) := by
  obtain ⟨inOrder, _, same, each, perm⟩ := h.of_obj
  cases same
  refine .obj (List.rel_filter ?_ each) (perm.filter _)
  intro m n here
  show keep m.1 = true ↔ keep n.1 = true
  rw [here.key_eq]

theorem countP_eq (h : Spelled (Json.obj members) (Json.obj spelled)) (key : String) :
    spelled.countP (·.1 == key) = members.countP (·.1 == key) := by
  rw [List.countP_eq_length_filter, List.countP_eq_length_filter, (h.filter (· == key)).length_eq]

theorem filter_eq_singleton (h : Spelled (Json.obj members) (Json.obj spelled))
    (once : members.filter (·.1 == key) = [(key, part)]) :
    ∃ other, spelled.filter (·.1 == key) = [(key, other)] ∧ Spelled part other := by
  have here := h.filter (· == key)
  rw [once] at here
  obtain ⟨inOrder, _, same, each, perm⟩ := here.of_obj
  cases same
  obtain _ | ⟨first, none⟩ := each
  cases none
  obtain ⟨_, value⟩ := first
  exact ⟨_, List.perm_singleton.1 perm.symm, value⟩

theorem filter_eq_nil (h : Spelled (Json.obj members) (Json.obj spelled))
    (absent : members.filter (·.1 == key) = []) : spelled.filter (·.1 == key) = [] := by
  have here := (h.filter (· == key)).length_eq
  rw [absent] at here
  exact List.length_eq_zero_iff.1 here.symm

end Spelled

theorem lookup_of_filter (once : members.filter (·.1 == key) = [(key, part)]) :
    members.lookup key = some part := by
  induction members with
  | nil => cases once
  | cons m rest ih =>
      obtain ⟨other, v⟩ := m
      by_cases here : other = key
      · subst here
        rw [List.filter_cons_of_pos (by simp)] at once
        obtain ⟨first, -⟩ := List.cons.inj once
        rw [List.lookup_cons_self, (Prod.mk.inj first).2]
      · rw [List.filter_cons_of_neg (by simpa using here)] at once
        have later : (key == other) = false := by simpa using Ne.symm here
        rw [List.lookup_cons, later]
        exact ih once

/-- Whether a value is read from all that may be spelled of a tree. -/
def ReadsBack (decode : Json → Option α) (v : Json) (a : α) : Prop :=
  ∀ w, Spelled v w → decode w = some a

namespace ReadsBack

variable {decode : Json → Option α} {a : α}

theorem str {s : String} (read : decode (Json.str s) = some a) : ReadsBack decode (Json.str s) a := by
  rintro _ ⟨⟩
  exact read

theorem text (s : String) : ReadsBack string? (Json.str s) s := str rfl

theorem bool (b : Bool) : ReadsBack bool? (Json.bool b) b := by
  rintro _ ⟨⟩
  rfl

theorem int {i : Int} (read : decode (Json.int i) = some a) : ReadsBack decode (Json.int i) a := by
  rintro _ ⟨⟩
  exact read

theorem float {x : Binary64} (finite : x.isFinite = true) :
    ReadsBack number? (Json.float x) x := by
  intro w spelled
  cases spelled with
  | float => rfl
  | notFinite notFinite => simp [finite] at notFinite

/-- What is made of a value that is read back is read back. -/
theorem map {f : α → β} (h : ReadsBack decode v a) :
    ReadsBack (fun w => (decode w).map f) v (f a) := by
  intro w spelled
  exact congrArg (Option.map f) (h w spelled)

theorem list {encode : α → Json} {as : List α} (each : ∀ a ∈ as, ReadsBack decode (encode a) a) :
    ReadsBack (·.list? decode) (ofList encode as) as := by
  intro w spelled
  obtain ⟨others, rfl, items⟩ := spelled.of_arr
  clear spelled
  show others.mapM decode = some as
  induction as generalizing others with
  | nil =>
      cases items
      rfl
  | cons a rest ih =>
      obtain ⟨v, vs, here, later, rfl⟩ := List.forall₂_cons_left_iff.1 items
      have tail := ih (fun b mem => each b (List.mem_cons_of_mem a mem)) vs later
      rw [List.mapM_cons, each a List.mem_cons_self v here, tail]
      rfl

/-- A value is read back where null is allowed if null cannot be spelled of it. -/
theorem nullable_some (h : ReadsBack decode v a) (notNull : ¬ Spelled v Json.null) :
    ReadsBack (·.nullable? decode) v (some a) := by
  intro w spelled
  have read := h w spelled
  cases w with
  | null => exact absurd spelled notNull
  | _ => exact congrArg (Option.map some) read

/-- An optional value is read back if null is spelled of no value. -/
theorem nullable {encode : α → Json} (each : ∀ a, ReadsBack decode (encode a) a)
    (notNull : ∀ a, ¬ Spelled (encode a) Json.null) (o : Option α) :
    ReadsBack (·.nullable? decode) (ofOption encode o) o := by
  cases o with
  | none =>
      rintro _ ⟨⟩
      rfl
  | some a => exact (each a).nullable_some (notNull a)

end ReadsBack

/-- Whether the fields of a record are spelled of some members. -/
def Fields.Spell (fields : Fields) (members : List (String × Json)) : Prop :=
  fields.listed = false ∧ Spelled (obj members) (obj fields.entries)

namespace Fields.Spell

variable {fields : Fields} {decode : Json → Option α} {a value : α}

theorem get? (h : fields.Spell members)
    (once : members.filter (·.1 == name) = [(name, part)]) :
    ∃ other, fields.get? name = some other ∧ Spelled part other := by
  obtain ⟨other, found, spelled⟩ := h.2.filter_eq_singleton once
  exact ⟨other, lookup_of_filter found, spelled⟩

theorem get?_eq_none (h : fields.Spell members) (absent : members.filter (·.1 == name) = []) :
    fields.get? name = none := by
  have nothing := List.filter_eq_nil_iff.1 (h.2.filter_eq_nil absent)
  rw [Fields.get?, List.lookup_eq_none_iff]
  intro m mem
  have other : m.1 ≠ name := by simpa using nothing m mem
  simpa using other.symm

theorem required? (h : fields.Spell members) (name : String)
    (once : members.filter (·.1 == name) = [(name, part)]) (read : ReadsBack decode part a) :
    fields.required? name decode = some a := by
  obtain ⟨other, found, spelled⟩ := h.get? once
  rw [Fields.required?, found, Option.bind_some, read other spelled]

theorem withDefault? (h : fields.Spell members) (name : String)
    (once : members.filter (·.1 == name) = [(name, part)]) (read : ReadsBack decode part a) :
    fields.withDefault? name value decode = some a := by
  obtain ⟨other, found, spelled⟩ := h.get? once
  rw [Fields.withDefault?, found]
  exact read other spelled

theorem withDefault?_of_absent (h : fields.Spell members) (name : String)
    (absent : members.filter (·.1 == name) = []) :
    fields.withDefault? name value decode = some value := by
  rw [Fields.withDefault?, h.get?_eq_none absent]

theorem optional? {o : Option α} (h : fields.Spell members) (name : String)
    (once : members.filter (·.1 == name) = [(name, part)])
    (read : ReadsBack (·.nullable? decode) part o) :
    fields.optional? name decode = some o := by
  obtain ⟨other, found, spelled⟩ := h.get? once
  rw [Fields.optional?, found]
  exact read other spelled

end Fields.Spell

namespace ReadsBack

variable {a : α}

/-- A record is read back if it is from its fields. -/
theorem record {build : Fields → Option α}
    (once : ∀ name ∈ names, members.countP (·.1 == name) ≤ 1)
    (built : ∀ fields, fields.Spell members → build fields = some a) :
    ReadsBack (fun w => (w.fields? names).bind build) (obj members) a := by
  intro w spelled
  obtain ⟨_, found, rfl, -⟩ := spelled.of_obj
  have distinct : (names.all fun name => found.countP (·.1 == name) ≤ 1) = true := by
    simpa only [spelled.countP_eq, List.all_eq_true, decide_eq_true_eq] using once
  show ((obj found).fields? names).bind build = some a
  rw [fields?, if_pos distinct, Option.bind_some, built ⟨found, false⟩ ⟨rfl, spelled⟩]

/-- An alternative whose tag stands among its fields is read back if it is from the rest. -/
theorem tagged_fields {build : String × Json → Option α}
    (absent : rest.filter (·.1 == tag) = [])
    (built : ReadsBack (fun v => build (name, v)) (obj rest) a) :
    ReadsBack (fun w => (w.taggedFields? access tag names).bind build)
      (obj ((tag, .str name) :: rest)) a := by
  intro w spelled
  obtain ⟨_, found, rfl, -⟩ := spelled.of_obj
  have once : ((tag, Json.str name) :: rest).filter (·.1 == tag) = [(tag, .str name)] := by
    rw [List.filter_cons_of_pos (by simp), absent]
  have beside : ((tag, Json.str name) :: rest).filter (·.1 != tag) = rest := by
    rw [List.filter_cons_of_neg (by simp), List.filter_eq_self]
    simpa using absent
  have kept := spelled.filter (· != tag)
  rw [beside] at kept
  have held : haveReadable (found.filter (·.1 != tag)) = true := kept.isReadable
  obtain ⟨_, only, ⟨⟩⟩ := spelled.filter_eq_singleton once
  simp only [taggedFields?, only, held, tagName?, if_true, Option.map_some, Option.bind_some]
  exact built _ kept

theorem tagged_bare {build : Tagged → Option α} (apart : tag ≠ content)
    (built : build ⟨name, none, access⟩ = some a) :
    ReadsBack (fun w => (w.taggedContent? access tag content names).bind build)
      (obj [(tag, .str name)]) a := by
  intro w spelled
  obtain ⟨_, found, rfl, -⟩ := spelled.of_obj
  have once : [(tag, Json.str name)].filter (·.1 == tag) = [(tag, .str name)] := by simp
  have absent : [(tag, Json.str name)].filter (·.1 == content) = [] := by simp [apart]
  obtain ⟨_, only, ⟨⟩⟩ := spelled.filter_eq_singleton once
  simp only [taggedContent?, only, spelled.filter_eq_nil absent, name?, Option.map_some,
    Option.bind_some, built]

/-- An alternative whose content stands beside its tag is read back if it is from the content,
held or not. -/
theorem tagged_content {build : Tagged → Option α} (apart : tag ≠ content)
    (built : ∀ access, ReadsBack (fun v => build ⟨name, some v, access⟩) part a) :
    ReadsBack (fun w => (w.taggedContent? access tag content names).bind build)
      (obj [(tag, .str name), (content, part)]) a := by
  intro w spelled
  obtain ⟨_, found, rfl, -⟩ := spelled.of_obj
  have tagOnce : [(tag, Json.str name), (content, part)].filter (·.1 == tag) =
      [(tag, .str name)] := by simp [apart.symm]
  have contentOnce : [(tag, Json.str name), (content, part)].filter (·.1 == content) =
      [(content, part)] := by simp [apart]
  obtain ⟨_, only, ⟨⟩⟩ := spelled.filter_eq_singleton tagOnce
  obtain ⟨c, beside, here⟩ := spelled.filter_eq_singleton contentOnce
  simp only [taggedContent?, only, beside, name?, here.isReadable, if_true, Option.map_some]
  split
  · exact built .held c here
  · exact built access c here

end ReadsBack

end TableView.Json
