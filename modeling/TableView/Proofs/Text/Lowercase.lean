import TableView.Text.Lowercase

/-!
# The lowercase of a piece of a text

Lowercasing maps characters one by one, except that a capital sigma becomes a final sigma
at the end of a word, which depends on what stands around it. So the lowercase of a text
is put together from those of its pieces, each between its neighbours
(`lowerBetween_append`), and a piece has the same lowercase in two places exactly if its
capital sigmas end a word in both or in neither (`lowerBetween_eq_iff`).

What stands before a piece is kept with the nearest character first.
-/

namespace TableView.Text

/-- Whether a capital sigma between these characters ends a word. -/
def endsWord (before after : List Char) : Bool := startsCased before && !startsCased after

/-- The lowercase of a character that ends a word or does not. -/
def lowerWhere (ends : Bool) (c : Char) : List Char :=
  if c = 'Σ' then [if ends then 'ς' else 'σ'] else lowerChar c

/-- The lowercase of a piece of a text, given the characters before it and after it. -/
def lowerBetween (before after : List Char) : List Char → List Char
  | [] => []
  | c :: rest =>
    lowerWhere (endsWord before (rest ++ after)) c ++ lowerBetween (c :: before) after rest

/-- Whether the capital sigmas of a piece end a word in one place as they do in another. -/
def EndAlike (before after before' after' : List Char) (piece : List Char) : Prop :=
  ∀ head tail, piece = head ++ 'Σ' :: tail →
    endsWord (head.reverse ++ before) (tail ++ after) =
      endsWord (head.reverse ++ before') (tail ++ after')

variable {before after before' after' : List Char} {c : Char} {rest : List Char}

/-- A text is a piece with nothing after it. -/
theorem lowerFrom_eq (before cs : List Char) : lowerFrom before cs = lowerBetween before [] cs := by
  induction cs generalizing before with
  | nil => rfl
  | cons c rest ih => rw [lowerFrom, lowerBetween, ih, List.append_nil]; rfl

/-- A piece is put together from its parts, each between what stands before and after it. -/
theorem lowerBetween_append (before after xs ys : List Char) :
    lowerBetween before after (xs ++ ys) =
      lowerBetween before (ys ++ after) xs ++ lowerBetween (xs.reverse ++ before) after ys := by
  induction xs generalizing before with
  | nil => rfl
  | cons c rest ih => simp [lowerBetween, ih]

theorem length_lowerWhere (ends ends' : Bool) (c : Char) :
    (lowerWhere ends c).length = (lowerWhere ends' c).length := by
  unfold lowerWhere
  split <;> rfl

theorem length_lowerBetween (before after before' after' piece : List Char) :
    (lowerBetween before after piece).length = (lowerBetween before' after' piece).length := by
  induction piece generalizing before before' with
  | nil => rfl
  | cons c rest ih =>
      rw [lowerBetween, lowerBetween, List.length_append, List.length_append,
        ih (c :: before) (c :: before'), length_lowerWhere]

/-- Only the lowercase of a capital sigma tells whether it ends a word. -/
theorem lowerWhere_eq_iff {ends ends' : Bool} :
    lowerWhere ends c = lowerWhere ends' c ↔ (c = 'Σ' → ends = ends') := by
  by_cases sigma : c = 'Σ'
  · subst sigma
    cases ends <;> cases ends' <;> decide
  · simp [lowerWhere, sigma]

/-- A piece ends words alike in two places if its first character does and the others do. -/
theorem endAlike_cons :
    EndAlike before after before' after' (c :: rest) ↔
      (c = 'Σ' → endsWord before (rest ++ after) = endsWord before' (rest ++ after')) ∧
        EndAlike (c :: before) after (c :: before') after' rest := by
  constructor
  · intro alike
    refine ⟨?_, ?_⟩
    · rintro rfl
      exact alike [] rest rfl
    · rintro head tail rfl
      simpa using alike (c :: head) tail rfl
  · rintro ⟨here, there⟩ head tail split
    cases head with
    | nil =>
        obtain ⟨sigma, rfl⟩ := List.cons.inj split
        exact here sigma
    | cons first head =>
        obtain ⟨rfl, later⟩ := List.cons.inj split
        simpa using there head tail later

/-- A piece has one lowercase in two places exactly if its capital sigmas end words alike. -/
theorem lowerBetween_eq_iff (before after before' after' piece : List Char) :
    lowerBetween before after piece = lowerBetween before' after' piece ↔
      EndAlike before after before' after' piece := by
  induction piece generalizing before before' with
  | nil =>
      apply iff_of_true rfl
      intro head tail split
      cases head <;> cases split
  | cons c rest ih =>
      rw [endAlike_cons, ← ih, ← lowerWhere_eq_iff]
      constructor
      · intro same
        apply List.append_inj same
        exact length_lowerWhere _ _ c
      · rintro ⟨here, there⟩
        rw [lowerBetween, lowerBetween, here, there]

/-- The lowercase of a text in three pieces. -/
theorem lowerFrom_pieces (us ns vs : List Char) :
    lowerFrom [] (us ++ ns ++ vs) =
      lowerBetween [] (ns ++ vs) us ++ lowerBetween us.reverse vs ns ++
        lowerBetween (ns.reverse ++ us.reverse) [] vs := by
  rw [lowerFrom_eq, lowerBetween_append, lowerBetween_append]
  simp

end TableView.Text
