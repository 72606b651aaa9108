import TableView.Proofs.Render.Composition

/-!
# Filters are monotone in their clauses

A filter is put together from clauses by all and any alone, so a filter that holds still
holds when more of its clauses do (`Holds.mono`). Evaluating a filter asks of a clause that
the record meets it; a checked filter asks besides that the clause fits the schema. So a
schema that lets more clauses filter keeps more records, and no check lets a record through
that the filter itself does not keep.
-/

namespace TableView

/-- Whether whatever may be filtered in one schema may be filtered in another, under the same key
and as a column of the same kind. -/
def Schema.FiltersWithin (s t : Schema) : Prop :=
  ∀ key column, s.resolve .filter key = .ok column →
    ∃ other, t.resolve .filter key = .ok other ∧ other.kind = column.kind

/-- A catalog lets filter no more than its columns do. -/
theorem Schema.filtersWithin_ofColumns (c : Catalog) :
    (ofCatalog c).FiltersWithin (ofColumns c.columns) := by
  intro key column found
  obtain ⟨known, -⟩ := (ofCatalog c).resolve_eq_ok_iff.1 found
  exact ⟨column, (ofColumns c.columns).resolve_eq_ok_iff.2 ⟨known, rfl⟩, rfl⟩

/-- A clause that fits a schema fits one that lets filter at least as much. -/
theorem Clause.check_mono {s t : Schema} (within : s.FiltersWithin t) {c : Clause}
    (accepted : c.check s = .ok ()) : c.check t = .ok () := by
  obtain ⟨column, found, applies⟩ := (c.check_eq_ok_iff_resolve s).1 accepted
  obtain ⟨other, foundOther, sameKind⟩ := within c.columnKey column found
  exact (c.check_eq_ok_iff_resolve t).2 ⟨other, foundOther, by rwa [sameKind]⟩

theorem Clause.issue?_eq_none_iff {s : Schema} {c : Clause} :
    c.issue? s = none ↔ c.check s = .ok () := by
  rw [issue?]
  cases c.check s with
  | ok _ => simp
  | error issue => simp

namespace Filter

/-- Whether a filter holds, given the clauses that do. -/
inductive Holds (met : Clause → Prop) : Filter → Prop where
  | clause {c : Clause} : met c → Holds met (.clause c)
  | all {children : List Filter} : (∀ f ∈ children, Holds met f) → Holds met (.group .all children)
  | any {children : List Filter} {f : Filter} : f ∈ children → Holds met f →
      Holds met (.group .any children)

variable {met also : Clause → Prop} {c : Clause} {children : List Filter} {f : Filter}

@[simp] theorem holds_clause_iff : Holds met (.clause c) ↔ met c :=
  ⟨fun | .clause holds => holds, .clause⟩

@[simp] theorem holds_all_iff :
    Holds met (.group .all children) ↔ ∀ f ∈ children, Holds met f :=
  ⟨fun | .all holds => holds, .all⟩

@[simp] theorem holds_any_iff :
    Holds met (.group .any children) ↔ ∃ f ∈ children, Holds met f :=
  ⟨fun | .any mem holds => ⟨_, mem, holds⟩, fun ⟨_, mem, holds⟩ => .any mem holds⟩

theorem Holds.mono (holds : Holds met f) (implied : ∀ c ∈ f.clauses, met c → also c) :
    Holds also f := by
  induction holds with
  | clause holds => exact .clause (implied _ (List.mem_singleton_self _) holds)
  | all _ ih =>
      refine .all fun f mem => ih f mem fun c known => ?_
      exact implied c (mem_clauses_group mem known)
  | any mem _ ih => exact .any mem (ih fun c known => implied c (mem_clauses_group mem known))

/-- Whatever evaluates groups by all and any decides whether a filter holds. -/
theorem eval_iff_holds (eval : Filter → Bool) (clause : ∀ c, eval (.clause c) = true ↔ met c)
    (all : ∀ children, eval (.group .all children) = children.all eval)
    (any : ∀ children, eval (.group .any children) = children.any eval) :
    eval f = true ↔ f.Holds met := by
  induction f with
  | clause c => rw [clause, holds_clause_iff]
  | group combinator children ih =>
      cases combinator with
      | all =>
          rw [all, holds_all_iff, List.all_eq_true]
          exact forall₂_congr ih
      | any =>
          rw [any, holds_any_iff, List.any_eq_true]
          exact exists_congr fun f => and_congr_right (ih f)

/-- A filter keeps a record if it holds by the clauses that the record meets. -/
theorem keeps_iff_holds {r : Record} : f.keeps r = true ↔ f.Holds fun c => c.keeps r = true :=
  eval_iff_holds (keeps r) (fun _ => Iff.rfl) (keeps_group_all r) (keeps_group_any r)

/-- A checked filter keeps a record if it holds by the clauses that fit and that the record
meets. -/
theorem checked_keeps_iff_holds {s : Schema} {r : Record} :
    (f.checked s).1.keeps r = true ↔
      f.Holds fun c => c.check s = .ok () ∧ c.keeps r = true := by
  refine eval_iff_holds (fun f => (f.checked s).1.keeps r) ?_ ?_ ?_
  · intro c
    rw [checked]
    cases c.check s with
    | ok _ => simp
    | error issue => simp
  · intro children
    rw [checked_group, CheckedFilter.keeps_group_all, List.all_map]
    rfl
  · intro children
    rw [checked_group, CheckedFilter.keeps_group_any, List.any_map]
    rfl

/-- A filter that is checked against a schema keeps no record that it does not keep when checked
against a schema that lets filter at least as much, and none that it does not keep unchecked.
Nothing is lost to the check where it reports nothing. -/
theorem checked_keeps_mono (f : Filter) (r : Record) :
    (∀ s t : Schema, s.FiltersWithin t →
        (f.checked s).1.keeps r = true → (f.checked t).1.keeps r = true) ∧
      ∀ s : Schema, ((f.checked s).1.keeps r = true → f.keeps r = true) ∧
        (f.issues s = [] → (f.checked s).1.keeps r = f.keeps r) := by
  have within : ∀ s : Schema, (f.checked s).1.keeps r = true → f.keeps r = true := by
    intro s kept
    exact keeps_iff_holds.2 ((checked_keeps_iff_holds.1 kept).mono fun _ _ met => met.2)
  refine ⟨?_, fun s => ⟨within s, ?_⟩⟩
  · intro s t filtersWithin kept
    refine checked_keeps_iff_holds.2 ((checked_keeps_iff_holds.1 kept).mono ?_)
    intro c _ met
    exact ⟨c.check_mono filtersWithin met.1, met.2⟩
  · intro unreported
    have accepted : ∀ c ∈ f.clauses, c.check s = .ok () := by
      intro c known
      exact Clause.issue?_eq_none_iff.1 (List.filterMap_eq_nil_iff.1 unreported c known)
    rw [Bool.eq_iff_iff]
    refine ⟨within s, fun kept => ?_⟩
    refine checked_keeps_iff_holds.2 ((keeps_iff_holds.1 kept).mono ?_)
    intro c known met
    exact ⟨accepted c known, met⟩

/-- A peer that one clause keeps. The clauses beside it name a field that is unknown, ask what does
not apply, and use a key that the catalog does not let filter; by the columns alone that key may
be filtered, which keeps another peer. -/
theorem checked_keeps_mono_peers :
    let s := Schema.ofCatalog .peers
    let t := Schema.ofColumns Catalog.peersColumns
    let g := group .all [clause ⟨"setting", .tag (.oneOf ["AlwaysReconnect"])⟩, group .all []]
    let f := group .any [g, group .any [clause ⟨"ghost", .isEmpty⟩,
      clause ⟨"setting", .boolean true⟩], clause ⟨"pubKey", .isNotEmpty⟩]
    let r := (Record.empty "1").set "setting" (.tag "AlwaysReconnect")
    let other := (Record.empty "2").set "pubKey" (.text "02ab")
    s.FiltersWithin t ∧ (f.checked s).1.keeps r = true ∧ (f.checked t).1.keeps r = true ∧
      f.keeps r = true ∧ g.issues s = [] ∧ (g.checked s).1.keeps r = g.keeps r ∧
      (f.checked s).1.keeps other = false ∧ (f.checked t).1.keeps other = true := by
  intro s t g f r other
  have within : s.FiltersWithin t := Schema.filtersWithin_ofColumns .peers
  have kept : (f.checked s).1.keeps r = true := by decide
  have unreported : g.issues s = [] := by decide
  obtain ⟨mono, checks⟩ := checked_keeps_mono f r
  refine ⟨within, kept, mono s t within kept, (checks s).1 kept, unreported,
    ((checked_keeps_mono g r).2 s).2 unreported, ?_, ?_⟩
  · decide
  · decide

end Filter

end TableView
