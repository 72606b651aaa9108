import Mathlib.Data.List.Forall2
import TableView.Filter
import TableView.Proofs.Condition.Complement

/-!
# The dual of a filter

The dual of a filter has the complement of each condition, and any where the filter has
all. It keeps just the records that the filter does not keep, as long as the values of a
record decide the conditions (`keeps_dual`). That holds of every tree, because a group
without members is dual to the other group without members.
-/

namespace TableView

/-- The other way to combine the members of a group. -/
def Combinator.dual : Combinator → Combinator
  | all => any
  | any => all

namespace Filter

mutual

/-- The dual of a filter, if all its conditions have complements. -/
def dual? : Filter → Option Filter
  | clause c => c.condition.complement?.map fun condition => clause { c with condition := condition }
  | group combinator children => (dualsOf? children).map (group combinator.dual)

/-- The duals of a list of filters, if all of them have one. -/
def dualsOf? : List Filter → Option (List Filter)
  | [] => some []
  | f :: rest => (dual? f).bind fun g => (dualsOf? rest).map (g :: ·)

end

variable {f g : Filter} {fs gs : List Filter} {r : Record}

theorem dualsOf?_eq_some_iff :
    dualsOf? fs = some gs ↔ List.Forall₂ (fun f g => f.dual? = some g) fs gs := by
  induction fs generalizing gs with
  | nil => simp [dualsOf?, eq_comm]
  | cons f rest ih =>
      simp only [dualsOf?, Option.bind_eq_some_iff, Option.map_eq_some_iff,
        List.forall₂_cons_left_iff]
      constructor
      · rintro ⟨g, here, others, there, rfl⟩
        exact ⟨g, others, here, ih.1 there, rfl⟩
      · rintro ⟨g, others, here, there, rfl⟩
        exact ⟨g, here, others, ih.2 there, rfl⟩

/-- If each filter of a list has a dual, so has the list. -/
theorem exists_dualsOf (each : ∀ f ∈ fs, ∃ g, f.dual? = some g) : ∃ gs, dualsOf? fs = some gs := by
  induction fs with
  | nil => exact ⟨[], rfl⟩
  | cons f rest ih =>
      obtain ⟨g, here⟩ := each f List.mem_cons_self
      obtain ⟨gs, there⟩ := ih fun f mem => each f (List.mem_cons_of_mem _ mem)
      exact ⟨g :: gs, by rw [dualsOf?, here, there]; rfl⟩

/-- A filter has a dual if every condition in it has a complement. -/
theorem exists_dual (complemented : ∀ c ∈ f.clauses, c.condition.complement?.isSome = true) :
    ∃ g, f.dual? = some g := by
  induction f with
  | clause c =>
      obtain ⟨condition, found⟩ := Option.isSome_iff_exists.1
        (complemented c (List.mem_singleton_self c))
      exact ⟨clause { c with condition := condition }, by rw [dual?, found]; rfl⟩
  | group combinator children ih =>
      obtain ⟨gs, found⟩ := exists_dualsOf fun f mem =>
        ih f mem fun c known => complemented c (mem_clauses_group mem known)
      exact ⟨group combinator.dual gs, by rw [dual?, found]; rfl⟩

/-- Filters that keep just what others do not keep, combined the other way, keep just what the
combination of the others does not keep. -/
theorem keeps_group_dual (combinator : Combinator)
    (opposite : List.Forall₂ (fun f g => g.keeps r = !f.keeps r) fs gs) :
    keeps r (group combinator.dual gs) = !keeps r (group combinator fs) := by
  induction opposite with
  | nil => cases combinator <;> rfl
  | cons here _ ih =>
      cases combinator <;>
        simp only [Combinator.dual, keeps_group_all, keeps_group_any, List.all_cons,
          List.any_cons, Bool.not_and, Bool.not_or] at ih ⊢ <;>
        rw [here, ih]

/-- The dual of a filter keeps the records that the filter does not keep, among those whose values
decide every condition of the filter. -/
theorem keeps_of_dual? (found : f.dual? = some g)
    (decided : ∀ c ∈ f.clauses, c.condition.decides (r.value c.columnKey) = true) :
    g.keeps r = !f.keeps r := by
  induction f generalizing g with
  | clause c =>
      obtain ⟨condition, known, rfl⟩ := Option.map_eq_some_iff.1 found
      exact Condition.accepts_complement known (decided c (List.mem_singleton_self c))
  | group combinator children ih =>
      obtain ⟨gs, known, rfl⟩ := Option.map_eq_some_iff.1 found
      apply keeps_group_dual
      have members : ∀ f ∈ children, ∀ g, f.dual? = some g → g.keeps r = !f.keeps r :=
        fun f mem g known => ih f mem known fun c inner => decided c (mem_clauses_group mem inner)
      -- Pair each member with its dual, to have the induction hypothesis for that dual.
      have both := (List.forall₂_and_left _ _).2 ⟨members, dualsOf?_eq_some_iff.1 known⟩
      exact both.imp fun f g pair => pair.1 g pair.2

/-- A filter whose conditions all have complements has a dual, which keeps a record exactly if the
filter does not, provided that the values of the record decide the conditions. Values that do not
decide a condition meet neither it nor its complement. -/
theorem keeps_dual :
    (∀ f : Filter, (∀ c ∈ f.clauses, c.condition.complement?.isSome = true) →
      ∃ g, f.dual? = some g ∧
        ∀ r : Record, (∀ c ∈ f.clauses, c.condition.decides (r.value c.columnKey) = true) →
          g.keeps r = !f.keeps r) ∧
      ∀ (c d : Condition) (v : Value), c.complement? = some d → c.decides v = false →
        c.accepts v = false ∧ d.accepts v = false := by
  constructor
  · intro f complemented
    obtain ⟨g, found⟩ := exists_dual complemented
    exact ⟨g, found, fun r decided => keeps_of_dual? found decided⟩
  · intro c d v found undecided
    have opposite : d.decides v = false := by
      rw [Condition.decides_complement found, undecided]
    exact ⟨Condition.accepts_of_not_decides undecided, Condition.accepts_of_not_decides opposite⟩

/-- A record with a list of tags and an amount outside of a range whose ends are swapped, and a
note that is missing; and an amount that is no number. -/
theorem keeps_dual_tags :
    let range : NumberTest := .between (.ofInt 10) (.ofInt 5)
    let f := group .any [
      clause ⟨"tags", .text ⟨.notContains, "UX"⟩⟩,
      group .all [clause ⟨"amt", .number range⟩, clause ⟨"note", .isEmpty⟩, group .any []]]
    let r := ((Record.empty "1").set "tags" (.list ["api", "ux"])).set "amt" (.number (.ofInt 7))
    (∃ g, f.dual? = some g ∧ f.keeps r = false ∧ g.keeps r = true) ∧
      (Condition.number range).accepts (.number .nan) = false ∧
        (Condition.number range.complement).accepts (.number .nan) = false := by
  intro range f r
  obtain ⟨dual, undecided⟩ := keeps_dual
  obtain ⟨g, found, opposite⟩ := dual f (by decide +kernel)
  have dropped : f.keeps r = false := by decide +kernel
  refine ⟨⟨g, found, dropped, ?_⟩, ?_⟩
  · rw [opposite r (by decide +kernel), dropped]
    rfl
  · exact undecided _ _ _ (by decide +kernel) (by decide +kernel)

end Filter

end TableView
