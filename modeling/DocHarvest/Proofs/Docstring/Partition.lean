import DocHarvest.Proofs.Docstring.Composition

/-!
Outlines as partitions.

A docstring is cut before each heading and nowhere else.  Whether a heading stands at a position is
told from the lines at this position alone, and the description, the headings and what the sections
store are all lines in their order.
-/

namespace DocHarvest.Docstring

open Text (Line isBlankText)

/-! ### Headings -/

/-- The first of the lines, or the first two, are the heading of a section. -/
def Begins : Style → List Line → Prop
  | .google, line :: _ => Google.Heading line
  | .numpy, title :: rule :: _ =>
      isBlankText title = false ∧ ¬ Numpy.Underline title ∧ Numpy.Underline rule
  | .rest, line :: _ => FieldList.FieldLine line
  | _, _ => False

instance : (style : Style) → (lines : List Line) → Decidable (Begins style lines)
  | .google, line :: _ => inferInstanceAs (Decidable (Boundary .google line))
  | .numpy, title :: rule :: _ =>
      inferInstanceAs (Decidable
        (isBlankText title = false ∧ ¬ Numpy.Underline title ∧ Numpy.Underline rule))
  | .rest, line :: _ => inferInstanceAs (Decidable (FieldList.FieldLine line))
  | .google, [] => inferInstanceAs (Decidable False)
  | .numpy, [] => inferInstanceAs (Decidable False)
  | .numpy, [_] => inferInstanceAs (Decidable False)
  | .rest, [] => inferInstanceAs (Decidable False)

theorem not_begins_nil (style : Style) : ¬ Begins style [] := by
  cases style with
  | google => exact id
  | numpy => exact id
  | rest => exact id

theorem Numpy.isTitle_iff {title rule : Line} {rest : List Line} :
    isTitle title rule = true ↔ Begins .numpy (title :: rule :: rest) := by
  unfold isTitle Begins
  rw [Bool.and_eq_true, Bool.and_eq_true, Bool.not_eq_true', Bool.not_eq_true',
    ← Bool.not_eq_true (isUnderline title), isUnderline_iff, isUnderline_iff]
  constructor
  · intro titled
    exact ⟨titled.1.2, titled.2, titled.1.1⟩
  · intro begins
    exact ⟨⟨begins.2.2, begins.1⟩, begins.2.1⟩

theorem Numpy.not_begins_rule {rule : Line} (underline : Underline rule) (rest : List Line) :
    ¬ Begins .numpy (rule :: rest) := by
  cases rest with
  | nil => exact id
  | cons next rest => exact fun begins => begins.2.1 underline

theorem Google.header?_eq_some {line name : Line} (found : header? line = some name) :
    ∃ title, Text.trimEnd line = title ++ [':'] ∧ Text.trim title = name := by
  unfold header? at found
  split at found
  · cases found
  · obtain ⟨title, cut, kept⟩ := Option.bind_eq_some_iff.mp found
    exact ⟨title, Text.withoutLast_eq_some.mp cut, (Text.nonBlank_eq_some.mp kept).1⟩

theorem FieldList.field?_eq_some {line name first : Line}
    (found : field? line = some (name, first)) :
    ∃ key text, Text.trim line = ':' :: key ++ ':' :: text ∧ ':' ∉ key ∧
      Text.trim key = name ∧ Text.trim text = first := by
  unfold field? at found
  split at found
  · next rest stripped =>
      obtain ⟨⟨key, text⟩, cut, kept⟩ := Option.bind_eq_some_iff.mp found
      obtain ⟨_name, nonBlank, same⟩ := Option.map_eq_some_iff.mp kept
      obtain ⟨whole, absent⟩ := Text.splitOnce_mark_eq_some cut
      cases same
      refine ⟨key, text, ?_, absent, (Text.nonBlank_eq_some.mp nonBlank).1, rfl⟩
      rw [stripped, whole]
      rfl
  · cases found

/-! ### Partitions -/

/-- A heading with the lines up to the next. -/
structure Block where
  heading : List Line
  body : List Line

def Block.lines (block : Block) : List Line :=
  block.heading ++ block.body

/-- Lines are a description and blocks, and just the blocks begin with a heading. -/
structure Divides (style : Style) (lines description : List Line) (blocks : List Block) :
    Prop where
  whole : lines = description ++ blocks.flatMap Block.lines
  starts : ∀ position, Begins style (lines.drop position) ↔
    ∃ index < blocks.length,
      position = (description ++ (blocks.take index).flatMap Block.lines).length

/-- What a section stores of a block: its title as a name, and its body.  The text of a field is
the first line of the body. -/
inductive Stores : Style → Block → Section → Prop where
  | google {line title : Line} {body : List Line} (ends : Text.trimEnd line = title ++ [':']) :
      Stores .google ⟨[line], body⟩ ⟨Text.trim title, body⟩
  | numpy {title rule : Line} {body : List Line} :
      Stores .numpy ⟨[title, rule], body⟩ ⟨Text.trim title, body⟩
  | rest {line key text : Line} {body : List Line}
      (stripped : Text.trim line = ':' :: key ++ ':' :: text) (absent : ':' ∉ key) :
      Stores .rest ⟨[line], body⟩ ⟨Text.trim key, Text.trim text :: body⟩

section Divides

variable {style : Style} {lines description : List Line} {blocks : List Block}

theorem Divides.nothing (style : Style) : Divides style [] [] [] where
  whole := rfl
  starts := by
    intro position
    rw [List.drop_nil]
    constructor
    · intro begins
      exact absurd begins (not_begins_nil style)
    · rintro ⟨index, impossible, _position⟩
      exact absurd impossible (Nat.not_lt_zero index)

theorem Divides.plain {line : Line} (refused : ¬ Begins style (line :: lines))
    (divides : Divides style lines description blocks) :
    Divides style (line :: lines) (line :: description) blocks where
  whole := congrArg (line :: ·) divides.whole
  starts := by
    intro position
    cases position with
    | zero =>
        constructor
        · intro begins
          exact absurd begins refused
        · rintro ⟨index, _within, position⟩
          rw [List.cons_append, List.length_cons] at position
          omega
    | succ position =>
        simp only [List.drop_succ_cons, divides.starts, List.cons_append, List.length_cons,
          Nat.add_right_cancel_iff]

/-- The first block starts at the front, and the others behind it. -/
theorem starts_cons (block : Block) (blocks : List Block) (position : Nat) :
    (∃ index < (block :: blocks).length,
      position = ([] ++ ((block :: blocks).take index).flatMap Block.lines).length) ↔
    position = 0 ∨ ∃ index < blocks.length,
      position = block.lines.length + ((blocks.take index).flatMap Block.lines).length := by
  rw [List.length_cons, Nat.exists_lt_succ_left]
  simp only [List.take_zero, List.take_succ_cons, List.flatMap_nil, List.flatMap_cons,
    List.nil_append, List.length_nil, List.length_append]

theorem Divides.headed {heading : List Line} (begins : Begins style (heading ++ lines))
    (inside : ∀ position, 0 < position → position < heading.length →
      ¬ Begins style ((heading ++ lines).drop position))
    (divides : Divides style lines description blocks) :
    Divides style (heading ++ lines) [] (⟨heading, description⟩ :: blocks) where
  whole := by
    rw [List.nil_append, List.flatMap_cons, Block.lines, List.append_assoc, ← divides.whole]
  starts := by
    intro position
    rw [starts_cons]
    by_cases front : position = 0
    · subst front
      exact ⟨fun _begins => Or.inl rfl, fun _start => begins⟩
    · by_cases within : position < heading.length
      · constructor
        · intro again
          exact absurd again (inside position (Nat.pos_of_ne_zero front) within)
        · rintro (zero | ⟨index, _within, behind⟩)
          · exact absurd zero front
          · simp only [Block.lines, List.length_append] at behind
            omega
      · obtain ⟨later, rfl⟩ := Nat.exists_eq_add_of_le (Nat.le_of_not_lt within)
        rw [List.drop_length_add_append, divides.starts]
        simp only [front, false_or, Block.lines, List.length_append, Nat.add_assoc,
          Nat.add_left_cancel_iff]

end Divides

/-! ### Outlines -/

/-- Groups divide the lines where each heading is a line by itself. -/
theorem exists_divides_groups {style : Style} {α : Type} {head : Line → Option α}
    (agrees : ∀ line rest, (head line).isSome = true ↔ Begins style (line :: rest))
    (lines : List Line) :
    ∃ blocks, Divides style lines (Text.groups head lines).1 blocks ∧
      List.Forall₂ (fun block group => ∃ line, block = ⟨[line], group.2⟩ ∧ head line = some group.1)
        blocks (Text.groups head lines).2 := by
  induction lines with
  | nil => exact ⟨[], .nothing style, .nil⟩
  | cons line rest ih =>
      obtain ⟨blocks, divides, stored⟩ := ih
      cases taken : head line with
      | none =>
          have refused : ¬ Begins style (line :: rest) := by
            rw [← agrees, taken]
            exact Bool.false_ne_true
          rw [groups_cons_none taken]
          exact ⟨blocks, divides.plain refused, stored⟩
      | some accepted =>
          have begins : Begins style ([line] ++ rest) := by
            rw [List.singleton_append, ← agrees, taken]
            rfl
          have inside : ∀ position, 0 < position → position < [line].length →
              ¬ Begins style (([line] ++ rest).drop position) := by
            intro position after before
            rw [List.length_singleton] at before
            omega
          rw [groups_cons_some taken]
          exact ⟨_, divides.headed begins inside, .cons ⟨line, rfl, taken⟩ stored⟩

theorem Google.exists_divides_outline (lines : List Line) :
    ∃ blocks, Divides .google lines (outline lines).description blocks ∧
      List.Forall₂ (Stores .google) blocks (outline lines).sections := by
  have agrees (line : Line) (rest : List Line) :
      (header? line).isSome = true ↔ Begins .google (line :: rest) := header?_isSome_iff
  obtain ⟨blocks, divides, stored⟩ := exists_divides_groups agrees lines
  refine ⟨blocks, divides, ?_⟩
  unfold outline
  rw [List.forall₂_map_right_iff]
  apply stored.imp
  rintro block ⟨name, body⟩ ⟨line, rfl, found⟩
  obtain ⟨title, ends, rfl⟩ := header?_eq_some found
  exact .google ends

theorem Numpy.exists_divides_outline (lines : List Line) :
    ∃ blocks, Divides .numpy lines (outline lines).description blocks ∧
      List.Forall₂ (Stores .numpy) blocks (outline lines).sections := by
  fun_induction outline lines with
  | case1 => exact ⟨[], .nothing .numpy, .nil⟩
  | case2 line => exact ⟨[], (Divides.nothing .numpy).plain id, .nil⟩
  | case3 line next rest titled _after ih =>
      obtain ⟨blocks, divides, stored⟩ := ih
      have begins : Begins .numpy ([line, next] ++ rest) := isTitle_iff.mp titled
      have inside : ∀ position, 0 < position → position < [line, next].length →
          ¬ Begins .numpy (([line, next] ++ rest).drop position) := by
        intro position after before
        have second : position = 1 := by
          change position < 2 at before
          omega
        rw [second]
        exact not_begins_rule begins.2.2 rest
      exact ⟨_, divides.headed begins inside, .cons .numpy stored⟩
  | case4 line next rest plain _after ih =>
      obtain ⟨blocks, divides, stored⟩ := ih
      have refused : ¬ Begins .numpy (line :: next :: rest) :=
        fun begins => plain (isTitle_iff.mpr begins)
      exact ⟨blocks, divides.plain refused, stored⟩

theorem FieldList.exists_divides_outline (lines : List Line) :
    ∃ blocks, Divides .rest lines (outline lines).description blocks ∧
      List.Forall₂ (Stores .rest) blocks (outline lines).sections := by
  have agrees (line : Line) (rest : List Line) :
      (field? line).isSome = true ↔ Begins .rest (line :: rest) := field?_isSome_iff
  obtain ⟨blocks, divides, stored⟩ := exists_divides_groups agrees lines
  refine ⟨blocks, divides, ?_⟩
  unfold outline
  rw [List.forall₂_map_right_iff]
  apply stored.imp
  rintro block ⟨⟨name, first⟩, body⟩ ⟨line, rfl, found⟩
  obtain ⟨key, text, stripped, absent, rfl, rfl⟩ := field?_eq_some found
  exact .rest stripped absent

/-- An outline is a partition of the lines at exactly the headings of its convention: each section
stores the body of one block under the title in its heading. -/
theorem outline_partition (style : Style) (lines : List Line) :
    ∃ blocks, Divides style lines (outline style lines).description blocks ∧
      List.Forall₂ (Stores style) blocks (outline style lines).sections := by
  cases style with
  | google => exact Google.exists_divides_outline lines
  | numpy => exact Numpy.exists_divides_outline lines
  | rest => exact FieldList.exists_divides_outline lines

example : outline .numpy (["==", "Notes", "--", "--", "", "--", "Raises", "="].map String.toList) =
    ⟨["==".toList],
      [⟨"Notes".toList, ["--", "", "--"].map String.toList⟩, ⟨"Raises".toList, []⟩]⟩ := by
  decide

end DocHarvest.Docstring
