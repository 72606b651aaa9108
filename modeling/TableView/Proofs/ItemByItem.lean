import Mathlib.Data.List.Forall2

/-!
# Lists made item by item

What is made of a list item by item, if something is made of every item, is related to the
list item by item (`mapM_eq_some_iff`). So it has an item for each item of the list, and what
is known about single items carries over.
-/

namespace TableView

theorem mapM_eq_some_iff {f : α → Option β} {l : List α} {as : List β} :
    l.mapM f = some as ↔ List.Forall₂ (fun x a => f x = some a) l as := by
  induction l generalizing as with
  | nil =>
      rw [List.mapM_nil, List.forall₂_nil_left_iff]
      exact Option.some.injEq [] as ▸ eq_comm
  | cons x rest ih =>
      rw [List.mapM_cons, List.forall₂_cons_left_iff]
      simp only [Option.bind_eq_bind, Option.bind_eq_some_iff, ih]
      constructor
      · rintro ⟨a, read, more, later, same⟩
        exact ⟨a, more, read, later, (Option.some.inj same).symm⟩
      · rintro ⟨a, more, read, later, rfl⟩
        exact ⟨a, read, more, later, rfl⟩

/-- What is related to some items one by one has an item for each of its own. -/
theorem exists_of_forall₂ {R : α → β → Prop} {as : List α} {bs : List β}
    (each : List.Forall₂ R as bs) {b : β} (mem : b ∈ bs) : ∃ a ∈ as, R a b := by
  induction each with
  | nil => cases mem
  | @cons a other as others here _ ih =>
      obtain rfl | mem := List.mem_cons.1 mem
      · exact ⟨a, List.mem_cons_self, here⟩
      · obtain ⟨c, known, related⟩ := ih mem
        exact ⟨c, List.mem_cons_of_mem a known, related⟩

section MapM

variable {f : α → Option β} {l : List α} {as : List β}

theorem exists_of_mapM (made : l.mapM f = some as) {a : β} (mem : a ∈ as) :
    ∃ item ∈ l, f item = some a :=
  exists_of_forall₂ (mapM_eq_some_iff.1 made) mem

theorem exists_mem_of_mapM (made : l.mapM f = some as) {item : α} (mem : item ∈ l) :
    ∃ a ∈ as, f item = some a :=
  exists_of_forall₂ (mapM_eq_some_iff.1 made).flip mem

theorem length_of_mapM (made : l.mapM f = some as) : as.length = l.length :=
  (mapM_eq_some_iff.1 made).length_eq.symm

/-- What is the same of each item and of what is made of it is the same of the lists. -/
theorem map_eq_of_mapM {g : α → γ} {h : β → γ} (same : ∀ x a, f x = some a → h a = g x)
    (made : l.mapM f = some as) : as.map h = l.map g := by
  have each : List.Forall₂ (fun x a => x = a) (l.map g) (as.map h) := by
    rw [List.forall₂_map_left_iff, List.forall₂_map_right_iff]
    exact (mapM_eq_some_iff.1 made).imp fun x a read => (same x a read).symm
  rw [List.forall₂_eq_eq_eq] at each
  exact each.symm

theorem filter_of_mapM {p : α → Bool} {q : β → Bool} (same : ∀ x a, f x = some a → q a = p x)
    (made : l.mapM f = some as) : (l.filter p).mapM f = some (as.filter q) := by
  rw [mapM_eq_some_iff] at made ⊢
  refine List.rel_filter ?_ made
  intro x a read
  show p x = true ↔ q a = true
  rw [same x a read]

theorem isSome_mapM : (l.mapM f).isSome ↔ ∀ x ∈ l, (f x).isSome := by
  induction l with
  | nil => simp
  | cons x rest ih =>
      rw [List.mapM_cons, List.forall_mem_cons, ← ih]
      cases f x <;> cases rest.mapM f <;> simp

theorem mapM_map {encode : α → β} {decode : β → Option γ} {f : α → Option γ}
    (same : ∀ x ∈ l, decode (encode x) = f x) : (l.map encode).mapM decode = l.mapM f := by
  induction l with
  | nil => rfl
  | cons x rest ih =>
      obtain ⟨here, later⟩ := List.forall_mem_cons.1 same
      rw [List.map_cons, List.mapM_cons, List.mapM_cons, here, ih later]

end MapM

/-- A list is made of itself exactly if each item is. -/
theorem mapM_eq_some_self_iff {f : α → Option α} {l : List α} :
    l.mapM f = some l ↔ ∀ x ∈ l, f x = some x := by
  rw [mapM_eq_some_iff, List.forall₂_same]

/-- A list is made of itself if its items of either of two kinds are. -/
theorem mapM_eq_some_self_of_filter {f : α → Option α} {l : List α} {p q : α → Bool}
    (either : ∀ x, p x = true ∨ q x = true) (left : (l.filter p).mapM f = some (l.filter p))
    (right : (l.filter q).mapM f = some (l.filter q)) : l.mapM f = some l := by
  rw [mapM_eq_some_self_iff] at left right ⊢
  intro x mem
  obtain holds | holds := either x
  · exact left x (List.mem_filter.2 ⟨mem, holds⟩)
  · exact right x (List.mem_filter.2 ⟨mem, holds⟩)

/-- If some items are not kept, neither is the list. -/
theorem mapM_ite {f : α → Option α} {ok : α → Bool} {l : List α}
    (each : ∀ x ∈ l, f x = if ok x then some x else none) :
    l.mapM f = if l.all ok then some l else none := by
  induction l with
  | nil => rfl
  | cons x rest ih =>
      obtain ⟨here, later⟩ := List.forall_mem_cons.1 each
      rw [List.mapM_cons, here, ih later, List.all_cons]
      cases ok x with
      | false => rfl
      | true => cases rest.all ok <;> rfl

end TableView
