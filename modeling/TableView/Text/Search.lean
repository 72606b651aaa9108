import TableView.Text.Lowercase

/-!
# Looking for one text in another

Occurrence at the start, at the end and anywhere, on the characters of a text.
-/

namespace TableView.Text

/-- Whether `needle` occurs in `text` at any position. -/
def occursIn (needle : List Char) : List Char → Bool
  | [] => needle.isEmpty
  | c :: rest => needle.isPrefixOf (c :: rest) || occursIn needle rest

/-- Whether `text` contains `needle`. -/
def contains (text needle : String) : Bool := occursIn needle.toList text.toList

/-- Whether `text` starts with `needle`. -/
def beginsWith (text needle : String) : Bool := needle.toList.isPrefixOf text.toList

/-- Whether `text` ends with `needle`. -/
def endsWith (text needle : String) : Bool := needle.toList.isSuffixOf text.toList

theorem occursIn_iff {needle text : List Char} :
    occursIn needle text = true ↔ ∃ before after, text = before ++ needle ++ after := by
  induction text with
  | nil =>
    cases needle <;> simp [occursIn]
  | cons c rest ih =>
    simp only [occursIn, Bool.or_eq_true, ih, List.isPrefixOf_iff_prefix]
    constructor
    · rintro (⟨after, h⟩ | ⟨before, after, rfl⟩)
      · exact ⟨[], after, by simp [h]⟩
      · exact ⟨c :: before, after, by simp⟩
    · rintro ⟨before, after, h⟩
      cases before with
      | nil => exact .inl ⟨after, by simpa using h.symm⟩
      | cons b bs =>
        simp only [List.cons_append, List.cons.injEq] at h
        exact .inr ⟨bs, after, h.2⟩

end TableView.Text
