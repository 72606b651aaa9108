import TableView.Proofs.Condition.Complement
import TableView.Proofs.Text.Lowercase

/-!
# What a text condition finds

A text condition lowercases the text and what it looks for one by one. What stands
literally in the text is found if it has the same lowercase there as alone, which only a
capital sigma can spoil: one that ends the literal but not the word it stands in becomes
a final sigma alone and an ordinary one in the text (`finds_literal`).
-/

namespace TableView

namespace Text

/-- Whether each capital sigma of the literal `n` ends a word between `u` and `v` exactly if it ends
one in `n` alone. -/
def SigmasKept (u n v : String) : Prop := EndAlike u.toList.reverse v.toList [] [] n.toList

variable {u n v : String}

theorem toList_lowercase (s : String) : (lowercase s).toList = lowerBetween [] [] s.toList := by
  rw [lowercase, String.toList_ofList, lowerFrom_eq]

/-- The lowercase of a text holds that of a piece between the lowercase of what stands around. -/
theorem toList_lowercase_append (u n v : String) :
    (lowercase (u ++ n ++ v)).toList =
      lowerBetween [] (n.toList ++ v.toList) u.toList ++
        lowerBetween u.toList.reverse v.toList n.toList ++
          lowerBetween (n.toList.reverse ++ u.toList.reverse) [] v.toList := by
  rw [lowercase, String.toList_ofList, String.toList_append, String.toList_append, lowerFrom_pieces]

/-- The capital sigmas are kept exactly if the literal has the same lowercase as alone. -/
theorem sigmasKept_iff :
    SigmasKept u n v ↔
      lowerBetween u.toList.reverse v.toList n.toList = (lowercase n).toList := by
  rw [toList_lowercase, lowerBetween_eq_iff]
  rfl

instance (u n v : String) : Decidable (SigmasKept u n v) := decidable_of_iff _ sigmasKept_iff.symm

theorem sigmasKept_of_not_mem (none : 'Σ' ∉ n.toList) : SigmasKept u n v := by
  intro head tail split
  rw [split] at none
  simp at none

/-- A literal that keeps its sigmas is found wherever it stands. -/
theorem contains_of_sigmasKept (kept : SigmasKept u n v) :
    contains (lowercase (u ++ n ++ v)) (lowercase n) = true := by
  rw [contains, occursIn_iff, toList_lowercase_append, sigmasKept_iff.1 kept]
  exact ⟨_, _, rfl⟩

/-- A text begins with the literal that it was written with exactly if that keeps its sigmas. -/
theorem beginsWith_iff :
    beginsWith (lowercase ("" ++ n ++ v)) (lowercase n) = true ↔ SigmasKept "" n v := by
  rw [beginsWith, List.isPrefixOf_iff_prefix, toList_lowercase_append, sigmasKept_iff]
  constructor
  · rintro ⟨rest, same⟩
    -- The literal has one length wherever it stands, so it can only be found at its own place.
    rw [toList_lowercase] at same ⊢
    exact (List.append_inj_left same (length_lowerBetween ..)).symm
  · intro same
    rw [← same]
    exact List.prefix_append _ _

theorem endsWith_iff :
    endsWith (lowercase (u ++ n ++ "")) (lowercase n) = true ↔ SigmasKept u n "" := by
  have nothing : ∀ before, lowerBetween before [] "".toList = [] := fun _ => rfl
  rw [endsWith, List.isSuffixOf_iff_suffix, toList_lowercase_append, nothing, List.append_nil,
    sigmasKept_iff]
  constructor
  · rintro ⟨front, same⟩
    rw [toList_lowercase] at same ⊢
    exact (List.append_inj_right' same (length_lowerBetween ..)).symm
  · intro same
    rw [← same]
    exact List.suffix_append _ _

end Text

namespace Condition

open Text

variable {u n v s : String} {value : Value}

/-- A text condition tests the characters of a text or a tag. -/
theorem accepts_text (written : value.string? = some s) (present : value.isBlank = false)
    (test : TextTest) : (text test).accepts value = test.accepts s := by
  rw [accepts_of_present rfl present]
  cases value with
  | text t | tag t =>
      obtain rfl := Option.some.inj written
      rfl
  | _ => cases written

/-- A text or tag that is put together from three pieces contains the middle one, and no condition
denies it, if the capital sigmas of that piece end words in the text as they do alone; for a piece
without capital sigmas that is always so. A piece at one end is found there exactly if it is so, and
a piece that is the whole text is always found to equal it. -/
theorem finds_literal (written : value.string? = some (u ++ n ++ v))
    (present : value.isBlank = false) :
    ('Σ' ∉ n.toList → SigmasKept u n v) ∧
      (SigmasKept u n v →
        (text ⟨.contains, n⟩).accepts value = true ∧
          (text ⟨.notContains, n⟩).accepts value = false) ∧
      (u = "" → ((text ⟨.beginsWith, n⟩).accepts value = true ↔ SigmasKept u n v)) ∧
      (v = "" → ((text ⟨.endsWith, n⟩).accepts value = true ↔ SigmasKept u n v)) ∧
      (u = "" → v = "" → (text ⟨.equals, n⟩).accepts value = true) := by
  simp only [accepts_text written present, TextTest.accepts, TextOperator.holds]
  refine ⟨sigmasKept_of_not_mem, ?_, ?_, ?_, ?_⟩
  · intro kept
    rw [contains_of_sigmasKept kept]
    exact ⟨rfl, rfl⟩
  · rintro rfl
    exact beginsWith_iff
  · rintro rfl
    exact endsWith_iff
  · rintro rfl rfl
    simp

/-- The word for a street, at the front of an address and at the end of one. -/
theorem finds_literal_street :
    let front := Value.text "ΟΔΟΣ 5"
    let back := Value.tag "ΝΕΑ ΟΔΟΣ"
    (text ⟨.contains, "ΟΔΟΣ"⟩).accepts front = true ∧
      (text ⟨.notContains, "ΟΔΟΣ"⟩).accepts front = false ∧
      (text ⟨.beginsWith, "ΟΔΟΣ"⟩).accepts front = true ∧
      (text ⟨.endsWith, "ΟΔΟΣ"⟩).accepts back = true := by
  intro front back
  have written : front.string? = some ("" ++ "ΟΔΟΣ" ++ " 5") := rfl
  have writtenBack : back.string? = some ("ΝΕΑ " ++ "ΟΔΟΣ" ++ "") := rfl
  have kept : SigmasKept "" "ΟΔΟΣ" " 5" := by decide +kernel
  have keptBack : SigmasKept "ΝΕΑ " "ΟΔΟΣ" "" := by decide +kernel
  obtain ⟨-, found, begins, -, -⟩ := finds_literal written (by decide)
  obtain ⟨-, -, -, ends, -⟩ := finds_literal writtenBack (by decide)
  exact ⟨(found kept).1, (found kept).2, (begins rfl).2 kept, (ends rfl).2 keptBack⟩

/-- A literal that ends in a capital sigma is not found in the middle of a word. -/
theorem not_always_finds_literal :
    ¬ ∀ (u n v : String) (value : Value), value.string? = some (u ++ n ++ v) →
      value.isBlank = false →
      ((text ⟨.contains, n⟩).accepts value = true ∧
          (text ⟨.notContains, n⟩).accepts value = false) ∧
        (u = "" → (text ⟨.beginsWith, n⟩).accepts value = true) ∧
        (v = "" → (text ⟨.endsWith, n⟩).accepts value = true) ∧
        (u = "" → v = "" → (text ⟨.equals, n⟩).accepts value = true) := by
  intro always
  obtain ⟨⟨contained, -⟩, -⟩ := always "" "ΟΣ" "Α" (.text "ΟΣΑ") rfl (by decide)
  revert contained
  decide +kernel

end Condition

end TableView
