import DocHarvest.Docstring.Margin
import DocHarvest.Proofs.Text.Trimming

/-!
The indentation that lines share.

Blank lines take no part in it.  It is the indentation of some line and at most that of every
line, so that removing it leaves blank lines blank and the others not.
-/

namespace DocHarvest.Docstring

open Text (Line isBlankText indentation strip)

private theorem filter_solid_of_blank {blanks : List Line}
    (blank : blanks.all isBlankText = true) : (blanks.filter fun line => !isBlankText line) = [] := by
  rw [List.filter_eq_nil_iff]
  intro line member
  rw [List.all_eq_true.mp blank line member]
  exact Bool.false_ne_true

theorem commonMargin_append_blank {blanks : List Line} (blank : blanks.all isBlankText = true)
    (lines : List Line) : commonMargin (lines ++ blanks) = commonMargin lines := by
  unfold commonMargin
  rw [List.filter_append, filter_solid_of_blank blank, List.append_nil]

theorem commonMargin_blank_append {blanks : List Line} (blank : blanks.all isBlankText = true)
    (lines : List Line) : commonMargin (blanks ++ lines) = commonMargin lines := by
  unfold commonMargin
  rw [List.filter_append, filter_solid_of_blank blank, List.nil_append]

theorem commonMargin_strip (lines : List Line) :
    commonMargin (strip isBlankText lines) = commonMargin lines :=
  Text.apply_strip commonMargin_blank_append commonMargin_append_blank lines

section Solid

variable {lines : List Line} {line : Line}

private theorem indentation_mem (member : line ∈ lines) (solid : isBlankText line = false) :
    indentation line ∈ (lines.filter fun line => !isBlankText line).map indentation := by
  refine List.mem_map_of_mem (List.mem_filter.mpr ⟨member, ?_⟩)
  rw [solid]
  rfl

theorem commonMargin_le (member : line ∈ lines) (solid : isBlankText line = false) :
    commonMargin lines ≤ indentation line :=
  List.min?_getD_le_of_mem (indentation_mem member solid)

theorem commonMargin_attained (member : line ∈ lines) (solid : isBlankText line = false) :
    ∃ lowest ∈ lines, isBlankText lowest = false ∧ indentation lowest = commonMargin lines := by
  have listed := indentation_mem member solid
  unfold commonMargin
  cases least : ((lines.filter fun line => !isBlankText line).map indentation).min? with
  | none =>
      rw [List.min?_eq_none_iff.mp least] at listed
      cases listed
  | some margin =>
      have attained := (List.min?_eq_some_iff.mp least).1
      obtain ⟨lowest, kept, same⟩ := List.mem_map.mp attained
      obtain ⟨present, low⟩ := List.mem_filter.mp kept
      rw [Bool.not_eq_true'] at low
      exact ⟨lowest, present, low, same⟩

theorem isBlankText_drop_commonMargin (member : line ∈ lines) :
    isBlankText (line.drop (commonMargin lines)) = isBlankText line := by
  cases kind : isBlankText line with
  | true => exact Text.isBlankText_drop kind _
  | false => rw [Text.isBlankText_drop_indentation (commonMargin_le member kind), kind]

end Solid

/-! ### Lines without their margin -/

theorem dedent_append_blank {blanks : List Line} (blank : blanks.all isBlankText = true)
    (lines : List Line) :
    dedent (lines ++ blanks) =
      dedent lines ++ blanks.map (List.drop (commonMargin lines)) := by
  unfold dedent
  rw [commonMargin_append_blank blank, List.map_append]

theorem strip_dedent (lines : List Line) :
    strip isBlankText (dedent lines) = dedent (strip isBlankText lines) := by
  unfold dedent
  rw [commonMargin_strip]
  exact Text.strip_map fun line member => isBlankText_drop_commonMargin member

theorem all_blank_dedent {lines : List Line} (blank : lines.all isBlankText = true) :
    (dedent lines).all isBlankText = true := by
  unfold dedent
  rw [List.all_map, List.all_eq_true]
  intro line member
  exact Text.isBlankText_drop (List.all_eq_true.mp blank line member) _

theorem exists_flush_dedent {lines : List Line}
    (some_solid : ∃ line ∈ lines, isBlankText line = false) :
    ∃ line ∈ dedent lines, isBlankText line = false ∧ indentation line = 0 := by
  obtain ⟨line, member, solid⟩ := some_solid
  obtain ⟨lowest, present, low, attained⟩ := commonMargin_attained member solid
  refine ⟨lowest.drop (commonMargin lines), List.mem_map_of_mem present, ?_, ?_⟩
  · rw [isBlankText_drop_commonMargin present, low]
  · rw [Text.indentation_drop (Nat.le_of_eq attained.symm), attained, Nat.sub_self]

theorem commonMargin_dedent (lines : List Line) : commonMargin (dedent lines) = 0 := by
  cases blank : lines.all isBlankText with
  | true =>
      have nothing := commonMargin_append_blank (all_blank_dedent blank) []
      rw [List.nil_append] at nothing
      exact nothing
  | false =>
      obtain ⟨line, member, solid⟩ := List.all_eq_false.mp blank
      rw [Bool.not_eq_true] at solid
      obtain ⟨flush, present, low, edge⟩ := exists_flush_dedent ⟨line, member, solid⟩
      have least := commonMargin_le present low
      omega

@[simp]
theorem dedent_dedent (lines : List Line) : dedent (dedent lines) = dedent lines := by
  rw [dedent, commonMargin_dedent]
  exact List.map_id _

/-! ### Lines behind a margin -/

/-- Lines with the same margin before each. -/
def indent (margin : List Char) (lines : List Line) : List Line :=
  lines.map fun line => margin ++ line

section Indent

variable {margin : List Char} {lines : List Line} {line : Line}

theorem mem_indent : line ∈ indent margin lines ↔ ∃ inner ∈ lines, margin ++ inner = line :=
  List.mem_map

theorem isBlankText_indented (blank : isBlankText margin = true) (line : Line) :
    isBlankText (margin ++ line) = isBlankText line := by
  rw [Text.isBlankText_append, blank, Bool.true_and]

theorem commonMargin_indent (blank : isBlankText margin = true) (member : line ∈ lines)
    (solid : isBlankText line = false) :
    commonMargin (indent margin lines) = margin.length + commonMargin lines := by
  obtain ⟨lowest, present, low, attained⟩ := commonMargin_attained member solid
  have above := commonMargin_le (mem_indent.mpr ⟨lowest, present, rfl⟩)
    ((isBlankText_indented blank lowest).trans low)
  obtain ⟨deep, listed, kept, same⟩ := commonMargin_attained (mem_indent.mpr ⟨line, member, rfl⟩)
    ((isBlankText_indented blank line).trans solid)
  obtain ⟨inner, here, rfl⟩ := mem_indent.mp listed
  have below := commonMargin_le here ((isBlankText_indented blank inner).symm.trans kept)
  rw [Text.indentation_blank_append blank] at above same
  omega

/-- A margin before all lines does not matter. -/
theorem dedent_indent (blank : isBlankText margin = true) (member : line ∈ lines)
    (solid : isBlankText line = false) : dedent (indent margin lines) = dedent lines := by
  unfold dedent
  rw [commonMargin_indent blank member solid, indent, List.map_map]
  refine List.map_congr_left ?_
  intro other _member
  exact List.drop_length_add_append _

theorem strip_indent (blank : isBlankText margin = true) (lines : List Line) :
    strip isBlankText (indent margin lines) = indent margin (strip isBlankText lines) :=
  Text.strip_map fun line _member => isBlankText_indented blank line

end Indent

end DocHarvest.Docstring
