import DocHarvest.Proofs.Docstring.BlankLines

/-!
The layout around a docstring.

A docstring says what its lines say once blank lines at both ends are stripped and the shared
indentation is removed.  A margin before all lines, more blank lines at the ends, and cleaning
beforehand all lead to the same lines.
-/

namespace DocHarvest.Docstring

open Text (Line isBlankText Unbroken strip)

/-! ### Cleaned lines -/

theorem dropBlankFirst_frame (lines : List Line) :
    ∃ blanks, blanks.all isBlankText = true ∧ lines = blanks ++ dropBlankFirst lines := by
  cases lines with
  | nil => exact ⟨[], rfl, rfl⟩
  | cons first rest =>
      cases kind : isBlankText first with
      | true =>
          refine ⟨[first], ?_, ?_⟩
          · rw [List.all_cons, kind]
            rfl
          · rw [dropBlankFirst, kind]
            rfl
      | false =>
          refine ⟨[], rfl, ?_⟩
          rw [dropBlankFirst, kind]
          rfl

theorem dropBlankLast_frame (lines : List Line) :
    ∃ blanks, blanks.all isBlankText = true ∧ lines = dropBlankLast lines ++ blanks := by
  obtain ⟨blanks, blank, frame⟩ := dropBlankFirst_frame lines.reverse
  refine ⟨blanks.reverse, ?_, ?_⟩
  · rw [List.all_reverse]
    exact blank
  · unfold dropBlankLast
    rw [← List.reverse_append, ← frame, List.reverse_reverse]

/-- One blank line is dropped at either end, and nothing else. -/
theorem cleanLines_frame (text : List Char) :
    ∃ before kept after, before.all isBlankText = true ∧ after.all isBlankText = true ∧
      Text.lines text = before ++ kept ++ after ∧ cleanLines text = dedent kept := by
  obtain ⟨before, first, front⟩ := dropBlankFirst_frame (Text.lines text)
  obtain ⟨after, last, back⟩ := dropBlankLast_frame (dropBlankFirst (Text.lines text))
  refine ⟨before, _, after, first, last, ?_, rfl⟩
  rw [List.append_assoc, ← back, ← front]

theorem strip_cleanLines (text : List Char) :
    strip isBlankText (cleanLines text) = dedent (strip isBlankText (Text.lines text)) := by
  obtain ⟨before, kept, after, first, last, frame, cleaned⟩ := cleanLines_frame text
  rw [cleaned, frame, strip_dedent, Text.strip_append_right last, Text.strip_append_left first]

theorem unbroken_cleanLines {text : List Char}
    (unbroken : ∀ line ∈ Text.lines text, Unbroken line) :
    ∀ line ∈ cleanLines text, Unbroken line := by
  obtain ⟨before, kept, after, _first, _last, frame, cleaned⟩ := cleanLines_frame text
  intro line member
  rw [cleaned] at member
  obtain ⟨inner, present, rfl⟩ := List.mem_map.mp member
  refine (unbroken inner ?_).drop _
  rw [frame]
  exact List.mem_append_left _ (List.mem_append_right _ present)

/-! ### Joined lines -/

theorem strip_lines_unlines {source : List Line} (unbroken : ∀ line ∈ source, Unbroken line) :
    strip isBlankText (Text.lines (Text.unlines source)) = strip isBlankText source := by
  rcases Text.lines_unlines unbroken with whole | short
  · rw [whole]
  · have last : ([[]] : List Line).all isBlankText = true := rfl
    rw [← Text.strip_append_right last, short]

theorem unbroken_lines_unlines {source : List Line} (unbroken : ∀ line ∈ source, Unbroken line) :
    ∀ line ∈ Text.lines (Text.unlines source), Unbroken line := by
  intro line member
  refine unbroken line ?_
  rcases Text.lines_unlines unbroken with whole | short
  · rw [← whole]
    exact member
  · rw [← short]
    exact List.mem_append_left _ member

theorem strip_lines_clean {text : List Char}
    (unbroken : ∀ line ∈ Text.lines text, Unbroken line) :
    strip isBlankText (Text.lines (clean text)) =
      dedent (strip isBlankText (Text.lines text)) := by
  unfold clean
  rw [strip_lines_unlines (unbroken_cleanLines unbroken), strip_cleanLines]

/-! ### Docstrings -/

theorem ofLines_nil (style : Style) : ofLines style [] = empty := by
  cases style with
  | google => rfl
  | numpy => rfl
  | rest => rfl

theorem strip_lines_of_blank {text : List Char} (blank : isBlankText text = true) :
    strip isBlankText (Text.lines text) = [] :=
  Text.strip_of_all ((Text.isBlankText_lines text).trans blank)

/-- A docstring says what its stripped lines say without their shared indentation. -/
theorem parse_eq_ofLines (style : Style) {text : String}
    (unbroken : ∀ line ∈ Text.lines text.toList, Unbroken line) :
    parse style text = ofLines style (dedent (strip isBlankText (Text.lines text.toList))) := by
  unfold parse
  split
  · next blank =>
      rw [strip_lines_of_blank blank]
      exact (ofLines_nil style).symm
  · rw [← strip_lines_clean unbroken, ofLines_strip]

theorem dedent_indent_strip {margin : List Char} (blank : isBlankText margin = true)
    (lines : List Line) :
    dedent (indent margin (strip isBlankText lines)) = dedent (strip isBlankText lines) := by
  cases kind : lines.all isBlankText with
  | true =>
      rw [Text.strip_of_all kind]
      rfl
  | false =>
      obtain ⟨line, member, solid⟩ := List.all_eq_false.mp kind
      rw [Bool.not_eq_true] at solid
      exact dedent_indent blank (Text.mem_strip member solid) solid

/-- Lines behind a margin and between blank lines say what they say alone. -/
theorem parse_of_padded (style : Style) {text padded : String} {margin : List Char}
    {before after : List Line} (unbroken : ∀ line ∈ Text.lines text.toList, Unbroken line)
    (also : ∀ line ∈ Text.lines padded.toList, Unbroken line)
    (blank : isBlankText margin = true) (first : before.all isBlankText = true)
    (last : after.all isBlankText = true)
    (same : strip isBlankText (Text.lines padded.toList) =
      strip isBlankText (before ++ indent margin (Text.lines text.toList) ++ after)) :
    parse style padded = parse style text := by
  rw [Text.strip_append_right last, Text.strip_append_left first, strip_indent blank] at same
  rw [parse_eq_ofLines style unbroken, parse_eq_ofLines style also, same,
    dedent_indent_strip blank]

/-- Neither a margin before all lines, nor blank lines before and after them, nor cleaning
beforehand changes what a docstring says.  The padded text may end with its last line or with a
newline after it. -/
theorem parse_ignores_layout (style : Style) (text : String) (plain : '\r' ∉ text.toList) :
    (∀ (margin : List Char) (before after : List Line) (padded : String),
      isBlankText margin = true → Unbroken margin →
      (∀ line ∈ before ++ after, isBlankText line = true ∧ Unbroken line) →
      (Text.lines padded.toList = before ++ indent margin (Text.lines text.toList) ++ after ∨
        padded.toList =
          Text.unlines (before ++ indent margin (Text.lines text.toList) ++ after)) →
      parse style padded = parse style text) ∧
    parse style (String.ofList (clean text.toList)) = parse style text := by
  have unbroken : ∀ line ∈ Text.lines text.toList, Unbroken line :=
    fun _line => Text.unbroken_of_mem_lines plain
  constructor
  · intro margin before after padded blank whole around shape
    have first : before.all isBlankText = true :=
      List.all_eq_true.mpr fun line member => (around line (List.mem_append_left _ member)).1
    have last : after.all isBlankText = true :=
      List.all_eq_true.mpr fun line member => (around line (List.mem_append_right _ member)).1
    have inside : ∀ line ∈ before ++ indent margin (Text.lines text.toList) ++ after,
        Unbroken line := by
      intro line member
      rw [List.mem_append, List.mem_append] at member
      rcases member with (inBefore | indented) | inAfter
      · exact (around line (List.mem_append_left _ inBefore)).2
      · obtain ⟨inner, present, rfl⟩ := mem_indent.mp indented
        exact whole.append (unbroken inner present)
      · exact (around line (List.mem_append_right _ inAfter)).2
    rcases shape with lines | joined
    · exact parse_of_padded style unbroken (by rw [lines]; exact inside) blank first last
        (by rw [lines])
    · exact parse_of_padded style unbroken (by rw [joined]; exact unbroken_lines_unlines inside)
        blank first last (by rw [joined]; exact strip_lines_unlines inside)
  · have cleaned : ∀ line ∈ Text.lines (clean text.toList), Unbroken line :=
      unbroken_lines_unlines (unbroken_cleanLines unbroken)
    rw [parse_eq_ofLines style (by rw [String.toList_ofList]; exact cleaned),
      parse_eq_ofLines style unbroken, String.toList_ofList, strip_lines_clean unbroken,
      dedent_dedent]

theorem parse_ignores_layout_tabbed :
    parse .numpy "\n \n\tReturns\n\t-------\n\tint\n\t  A count.\n\t\n  \n" =
      parse .numpy "Returns\n-------\nint\n  A count.\n" ∧
    parse .numpy (String.ofList (clean " \n  Returns\n  ---\n".toList)) =
      parse .numpy " \n  Returns\n  ---\n" := by
  refine ⟨?_, (parse_ignores_layout .numpy " \n  Returns\n  ---\n" (by decide)).2⟩
  exact (parse_ignores_layout .numpy "Returns\n-------\nint\n  A count.\n" (by decide)).1
    ['\t'] [[], [' ']] [['\t'], [' ', ' ']] _ (by decide) (by decide) (by decide) (Or.inl rfl)

end DocHarvest.Docstring
