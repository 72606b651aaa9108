import TableView.Json.Reader
import TableView.Proofs.Json.Number
import TableView.Proofs.Json.Scan

/-!
# Trees read back

Reading the text of a tree gives the tree back, up to what JSON cannot express
(`read?_pretty`). Four things can be lost, and `reread` says what comes in their place:
a number that is not finite is written as null, a finite one becomes what the reader of
numbers makes of its text, a whole number beyond 64 bits becomes another number, and a
container with too many others around it has no value. A reader that reads the nearest
number keeps the finite ones (`rereadLeaf_float`).

Between text and tree stand the tokens of the tree. The scanner finds them in the text
because every piece is followed by something that ends it, and the machine builds the
tree from them because it returns to its stack after each value.
-/

namespace TableView.Json

/-- What is read back of a value that is no container. -/
def rereadLeaf [NumberReader] : Json → Json
  | int i => ofWhole (i < 0) i.natAbs
  | float x => (ofWord? (floatText x)).getD null
  | unreadable => null
  | v => v

mutual

/-- What is read back of a value if so many containers may be open at a time. -/
def reread [NumberReader] (room : Nat) : Json → Json
  | arr items => if room = 0 then unreadable else arr (rereadItems (room - 1) items)
  | obj members => if room = 0 then unreadable else obj (rereadMembers (room - 1) members)
  | v => v.rereadLeaf

/-- What is read back of the items of an array. -/
def rereadItems [NumberReader] (room : Nat) : List Json → List Json
  | [] => []
  | v :: rest => v.reread room :: rereadItems room rest

/-- What is read back of the members of an object. -/
def rereadMembers [NumberReader] (room : Nat) : List (String × Json) → List (String × Json)
  | [] => []
  | (k, v) :: rest => (k, v.reread room) :: rereadMembers room rest

end

@[simp] theorem rereadItems_eq [NumberReader] (room : Nat) (items : List Json) :
    rereadItems room items = items.map (reread room) := by
  induction items with
  | nil => rfl
  | cons v rest ih => rw [rereadItems, ih, List.map_cons]

@[simp] theorem rereadMembers_eq [NumberReader] (room : Nat) (members : List (String × Json)) :
    rereadMembers room members = members.map fun m => (m.1, m.2.reread room) := by
  induction members with
  | nil => rfl
  | cons m rest ih => rw [rereadMembers, ih, List.map_cons]

/-- What is read back of a number is a finite number, null or nothing. -/
theorem rereadLeaf_float_cases [NumberReader] (x : Binary64) :
    (float x).rereadLeaf = null ∨ (float x).rereadLeaf = unreadable ∨
      ∃ y, (float x).rereadLeaf = float y ∧ y.isFinite := by
  by_cases finite : x.isFinite = true
  · obtain ⟨negative, d, read, -⟩ := ofWord?_floatText finite
    have value : (float x).rereadLeaf = ofDecimal negative d := by
      rw [rereadLeaf, read, Option.getD_some]
    rw [value, ofDecimal]
    cases number : NumberReader.read? negative d with
    | none => exact .inr (.inl rfl)
    | some y => exact .inr (.inr ⟨y, rfl, NumberReader.isFinite_of_read? number⟩)
  · rw [rereadLeaf, floatText, if_neg finite]
    exact .inl rfl

theorem rereadLeaf_float (x : Binary64) :
    (float x).rereadLeaf = if x.isFinite then float x else null := by
  by_cases finite : x.isFinite = true
  · obtain ⟨negative, d, read, value⟩ := ofWord?_floatText finite
    rw [rereadLeaf, read, Option.getD_some, if_pos finite, ofDecimal_of_finite finite value]
  · rw [rereadLeaf, floatText, if_neg finite, if_neg finite]
    rfl

mutual

/-- The tokens of a value. -/
def tokens [NumberReader] : Json → List Token
  | arr items => .openArray :: (itemTokens items ++ [.closeArray])
  | obj members => .openObject :: (memberTokens members ++ [.closeObject])
  | str s => [.text (some s)]
  | v => [.atom v.rereadLeaf]

/-- The tokens of items with commas between them. -/
def itemTokens [NumberReader] : List Json → List Token
  | [] => []
  | [v] => tokens v
  | v :: rest => tokens v ++ .comma :: itemTokens rest

/-- The tokens of members with commas between them. -/
def memberTokens [NumberReader] : List (String × Json) → List Token
  | [] => []
  | [(k, v)] => .text (some k) :: .colon :: tokens v
  | (k, v) :: rest => .text (some k) :: .colon :: (tokens v ++ .comma :: memberTokens rest)

end

theorem itemTokens_cons_cons [NumberReader] (v w : Json) (rest : List Json) :
    itemTokens (v :: w :: rest) = tokens v ++ .comma :: itemTokens (w :: rest) := rfl

theorem memberTokens_cons_cons [NumberReader] (k : String) (v : Json) (m : String × Json)
    (rest : List (String × Json)) :
    memberTokens ((k, v) :: m :: rest) =
      .text (some k) :: .colon :: (tokens v ++ .comma :: memberTokens (m :: rest)) := rfl

/-- Whether a value is no container. -/
def IsLeaf : Json → Prop
  | arr _ => False
  | obj _ => False
  | _ => True

theorem splits_newLine [NumberReader] (depth : Nat) : Splits (newLine depth) [] := by
  have lineEnd : Splits ['\n'] [] := splits_char rfl
  exact lineEnd.append (splits_spaces (2 * depth))

theorem endsWord_newLine (depth : Nat) (rest : List Char) : EndsWord (newLine depth ++ rest) :=
  endsWord_cons (by decide) _

theorem scans_null [NumberReader] : Scans ['n', 'u', 'l', 'l'] [.atom null] :=
  scans_word (List.all_eq_true.1 rfl) rfl

theorem scans_intText [NumberReader] (i : Int) :
    Scans (intText i) [.atom (ofWhole (i < 0) i.natAbs)] :=
  scans_word (areWordChars_intText i) (ofWord?_intText i)

theorem scans_floatText [NumberReader] (x : Binary64) :
    Scans (floatText x) [.atom (float x).rereadLeaf] := by
  by_cases finite : x.isFinite = true
  · obtain ⟨negative, d, read, -⟩ := ofWord?_floatText finite
    have value : (float x).rereadLeaf = ofDecimal negative d := by
      rw [rereadLeaf, read, Option.getD_some]
    rw [value]
    refine scans_word ?_ read
    rw [floatText, if_pos finite]
    exact areWordChars_write x
  · have value : (float x).rereadLeaf = null := by
      rw [rereadLeaf, floatText, if_neg finite]
      rfl
    rw [value, floatText, if_neg finite]
    exact scans_null

theorem scans_leafText [NumberReader] {v : Json} (leaf : v.IsLeaf) :
    Scans (leafText v) (tokens v) := by
  cases v with
  | null => exact scans_null
  | bool b => cases b <;> exact scans_word (List.all_eq_true.1 rfl) rfl
  | int i => exact scans_intText i
  | float x => exact scans_floatText x
  | str s => exact (splits_stringText s).scans
  | arr items => exact leaf.elim
  | obj members => exact leaf.elim
  | unreadable => exact scans_null

theorem scans_prettyItems [NumberReader] {items : List Json}
    (scanned : ∀ v ∈ items, ∀ depth, Scans (prettyText depth v) (tokens v)) (depth : Nat) :
    Scans (prettyItems depth items) (itemTokens items) := by
  have comma : Splits [','] [.comma] := splits_char rfl
  induction items with
  | nil => exact fun _ _ _ => rfl
  | cons v rest ih =>
      have here : Scans (newLine depth ++ prettyText depth v) (tokens v) :=
        (splits_newLine depth).append_scans (scanned v List.mem_cons_self depth)
      have there := ih fun w member => scanned w (List.mem_cons_of_mem v member)
      cases rest with
      | nil => exact here
      | cons w more =>
          exact here.append (comma.append_scans there) (endsWord_cons (by decide) _)

theorem scans_prettyMembers [NumberReader] {members : List (String × Json)}
    (scanned : ∀ m ∈ members, ∀ depth, Scans (prettyText depth m.2) (tokens m.2)) (depth : Nat) :
    Scans (prettyMembers depth members) (memberTokens members) := by
  have comma : Splits [','] [.comma] := splits_char rfl
  have colon : Splits [':', ' '] [.colon] :=
    (splits_char rfl : Splits [':'] [.colon]).append (splits_char rfl : Splits [' '] [])
  induction members with
  | nil => exact fun _ _ _ => rfl
  | cons m rest ih =>
      obtain ⟨k, v⟩ := m
      have key : Splits (newLine depth ++ stringText k) [.text (some k)] :=
        (splits_newLine depth).append (splits_stringText k)
      have value : Scans (prettyText depth v) (tokens v) := scanned (k, v) List.mem_cons_self depth
      have there := ih fun n member => scanned n (List.mem_cons_of_mem _ member)
      cases rest with
      | nil => exact key.append_scans (colon.append_scans value)
      | cons n more =>
          exact key.append_scans (colon.append_scans
            (value.append (comma.append_scans there) (endsWord_cons (by decide) _)))

/-- The indented text of a tree is scanned as the tokens of the tree. -/
theorem scans_prettyText [NumberReader] (v : Json) :
    ∀ depth, Scans (prettyText depth v) (tokens v) := by
  induction v with
  | arr items ih =>
      intro depth
      have opened : Splits ['['] [.openArray] := splits_char rfl
      have closed : Splits [']'] [.closeArray] := splits_char rfl
      have last : Splits (newLine depth ++ [']']) [.closeArray] :=
        (splits_newLine depth).append closed
      cases items with
      | nil => exact (opened.append closed).scans
      | cons v rest =>
          have inside := scans_prettyItems ih (depth + 1)
          have ended := inside.append last.scans (endsWord_newLine depth [']'])
          rw [← List.append_assoc] at ended
          exact opened.append_scans ended
  | obj members ih =>
      intro depth
      have opened : Splits ['{'] [.openObject] := splits_char rfl
      have closed : Splits ['}'] [.closeObject] := splits_char rfl
      have last : Splits (newLine depth ++ ['}']) [.closeObject] :=
        (splits_newLine depth).append closed
      cases members with
      | nil => exact (opened.append closed).scans
      | cons m rest =>
          have inside := scans_prettyMembers ih (depth + 1)
          have ended := inside.append last.scans (endsWord_newLine depth ['}'])
          rw [← List.append_assoc] at ended
          exact opened.append_scans ended
  | null => exact fun _ => scans_leafText (v := null) trivial
  | bool b => exact fun _ => scans_leafText (v := bool b) trivial
  | int i => exact fun _ => scans_leafText (v := int i) trivial
  | float x => exact fun _ => scans_leafText (v := float x) trivial
  | str s => exact fun _ => scans_leafText (v := str s) trivial
  | unreadable => exact fun _ => scans_leafText (v := unreadable) trivial

namespace Reader

/-- How many containers may still be opened with a stack of open ones. -/
def room (stack : List Frame) : Nat := nestingLimit - stack.length

/-- A value is read as what `reread` says, and the reader is back at its stack. -/
def Reads [NumberReader] (v : Json) : Prop :=
  ∀ stack rest, run? (.value stack) (tokens v ++ rest) =
    run? (.complete stack (v.reread (room stack))) rest

theorem room_cons (frame : Frame) (stack : List Frame) :
    room (frame :: stack) = room stack - 1 := by
  simp only [room, List.length_cons]
  omega

theorem close_eq (stack : List Frame) (v : Json) :
    close stack v = .complete stack (if room stack = 0 then unreadable else v) := by
  rw [close, room]
  by_cases open? : stack.length < nestingLimit
  · rw [if_pos open?, if_neg (by omega)]
  · rw [if_neg open?, if_pos (by omega)]

/-- The first item of an array is read like any other, since no value begins with a bracket
that closes. -/
theorem run?_firstItem [NumberReader] (stack : List Frame) (v : Json) (more : List Json)
    (rest : List Token) :
    run? (.firstItem stack) (itemTokens (v :: more) ++ rest) =
      run? (.value (.array [] :: stack)) (itemTokens (v :: more) ++ rest) := by
  have first : ∀ rest, run? (.firstItem stack) (tokens v ++ rest) =
      run? (.value (.array [] :: stack)) (tokens v ++ rest) := by
    intro rest
    cases v <;> rfl
  cases more with
  | nil => exact first rest
  | cons w others =>
      rw [itemTokens_cons_cons, List.append_assoc]
      exact first _

/-- The first key of an object is read like any other. -/
theorem run?_firstKey [NumberReader] (stack : List Frame) (m : String × Json)
    (more : List (String × Json))
    (rest : List Token) :
    run? (.firstKey stack) (memberTokens (m :: more) ++ rest) =
      run? (.key stack []) (memberTokens (m :: more) ++ rest) := by
  cases more <;> rfl

theorem objectOf_some (members : List (String × Json)) :
    objectOf (members.map fun m => (some m.1, m.2)).reverse = obj members := by
  have kept : (members.map fun m => (some m.1, m.2)).mapM
      (fun (m : Option String × Json) => m.1.map fun k => (k, m.2)) = some members := by
    induction members with
    | nil => rfl
    | cons m rest ih => simp [ih]
  simp only [objectOf, List.reverse_reverse]
  rw [kept]

theorem run?_items [NumberReader] {items : List Json} (read : ∀ v ∈ items, Reads v)
    (nonempty : items ≠ [])
    (stack : List Frame) (done : List Json) (rest : List Token) :
    run? (.value (.array done :: stack)) (itemTokens items ++ .closeArray :: rest) =
      run? (close stack (arr (done.reverse ++ items.map (reread (room stack - 1))))) rest := by
  induction items generalizing done with
  | nil => exact absurd rfl nonempty
  | cons v more ih =>
      have here := read v List.mem_cons_self
      cases more with
      | nil =>
          rw [itemTokens, here, room_cons]
          simp [run?, step?]
      | cons w others =>
          have there := ih (fun u member => read u (List.mem_cons_of_mem v member)) (by simp)
            (v.reread (room stack - 1) :: done)
          rw [itemTokens_cons_cons, List.append_assoc, here, room_cons, List.cons_append]
          simp only [run?, step?]
          rw [there, List.reverse_cons, List.append_assoc, List.map_cons]
          rfl

theorem run?_members [NumberReader] {members : List (String × Json)}
    (read : ∀ m ∈ members, Reads m.2)
    (nonempty : members ≠ []) (stack : List Frame) (done : List (Option String × Json))
    (rest : List Token) :
    run? (.key stack done) (memberTokens members ++ .closeObject :: rest) =
      run? (close stack (objectOf ((members.map fun m =>
        (some m.1, m.2.reread (room stack - 1))).reverse ++ done))) rest := by
  induction members generalizing done with
  | nil => exact absurd rfl nonempty
  | cons m more ih =>
      obtain ⟨k, v⟩ := m
      have here : Reads v := read (k, v) List.mem_cons_self
      have opened : ∀ after,
          run? (.key stack done) (.text (some k) :: .colon :: (tokens v ++ after)) =
            run? (.complete (.object done (some k) :: stack) (v.reread (room stack - 1)))
              after := by
        intro after
        rw [← room_cons (.object done (some k)), ← here]
        rfl
      cases more with
      | nil =>
          rw [memberTokens, List.cons_append, List.cons_append, opened]
          simp [run?, step?]
      | cons n others =>
          have there := ih (fun u member => read u (List.mem_cons_of_mem (k, v) member)) (by simp)
            ((some k, v.reread (room stack - 1)) :: done)
          rw [memberTokens_cons_cons, List.cons_append, List.cons_append, List.append_assoc, opened,
            List.cons_append]
          simp only [run?, step?]
          rw [there]
          simp

theorem reads [NumberReader] (v : Json) : Reads v := by
  induction v with
  | null => exact fun _ _ => rfl
  | bool b => exact fun _ _ => rfl
  | int i => exact fun _ _ => rfl
  | float x => exact fun _ _ => rfl
  | str s => exact fun _ _ => rfl
  | unreadable => exact fun _ _ => rfl
  | arr items ih =>
      intro stack rest
      have inside : run? (.firstItem stack) (itemTokens items ++ .closeArray :: rest) =
          run? (close stack (arr (items.map (reread (room stack - 1))))) rest := by
        cases items with
        | nil => rfl
        | cons v more =>
            rw [run?_firstItem]
            exact run?_items ih (by simp) stack [] rest
      rw [tokens, List.cons_append, List.append_assoc, reread, rereadItems_eq, ← close_eq,
        ← inside]
      rfl
  | obj members ih =>
      intro stack rest
      have inside : run? (.firstKey stack) (memberTokens members ++ .closeObject :: rest) =
          run? (close stack (obj (members.map fun m => (m.1, m.2.reread (room stack - 1)))))
            rest := by
        cases members with
        | nil => rfl
        | cons m more =>
            have keyed := objectOf_some
              ((m :: more).map fun m => (m.1, m.2.reread (room stack - 1)))
            rw [List.map_map] at keyed
            rw [run?_firstKey, run?_members ih (by simp) stack [] rest, List.append_nil, ← keyed]
            rfl
      rw [tokens, List.cons_append, List.append_assoc, reread, rereadMembers_eq, ← close_eq,
        ← inside]
      rfl

end Reader

/-- Reading the indented text of a tree gives what `reread` says. -/
theorem read?_pretty [NumberReader] (v : Json) : read? v.pretty = some (v.reread nestingLimit) := by
  have scanned : scan? v.pretty.toList = some (tokens v) := by
    rw [pretty, String.toList_ofList]
    exact (scans_prettyText v 0).scan?
  have built := Reader.reads v [] []
  rw [List.append_nil] at built
  simp only [read?, scanned, Option.bind_some, ofTokens?, built]
  rfl

end TableView.Json
