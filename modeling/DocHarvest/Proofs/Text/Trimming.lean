import Mathlib.Data.List.TakeWhile
import DocHarvest.Text.Lines

/-!
Lists and texts with something at their ends that does not count.

A text is stripped of blank characters, and lines are stripped of blank lines, by the same rule.
-/

namespace DocHarvest.Text

/-! ### Stripping lists -/

section Strip

variable {α : Type} {p : α → Bool}

/-- Drop the entries at both ends that a test accepts. -/
def strip (p : α → Bool) (list : List α) : List α :=
  ((list.dropWhile p).reverse.dropWhile p).reverse

theorem dropWhile_of_all {list : List α} (all : list.all p = true) : list.dropWhile p = [] :=
  List.dropWhile_eq_nil_iff.mpr (List.all_eq_true.mp all)

theorem strip_of_all {list : List α} (all : list.all p = true) : strip p list = [] := by
  unfold strip
  rw [dropWhile_of_all all]
  rfl

theorem strip_append_left {front : List α} (all : front.all p = true) (list : List α) :
    strip p (front ++ list) = strip p list := by
  unfold strip
  rw [List.dropWhile_append_of_pos (List.all_eq_true.mp all)]

theorem strip_append_right {back : List α} (all : back.all p = true) (list : List α) :
    strip p (list ++ back) = strip p list := by
  cases mixed : list.all p with
  | true =>
      have whole : (list ++ back).all p = true := by
        rw [List.all_append, mixed, all]
        rfl
      rw [strip_of_all whole, strip_of_all mixed]
  | false =>
      have stays : (list.dropWhile p).isEmpty = false := by
        rw [List.isEmpty_eq_false_iff]
        intro nothing
        rw [List.all_eq_true.mpr (List.dropWhile_eq_nil_iff.mp nothing)] at mixed
        cases mixed
      unfold strip
      rw [List.dropWhile_append, stays, if_neg Bool.false_ne_true, List.reverse_append,
        List.dropWhile_append_of_pos]
      rw [← List.all_eq_true, List.all_reverse]
      exact all

/-- What is stripped from a list stands at its ends. -/
theorem strip_frame (p : α → Bool) (list : List α) :
    ∃ front back, front.all p = true ∧ back.all p = true ∧ list = front ++ strip p list ++ back := by
  refine ⟨list.takeWhile p, ((list.dropWhile p).reverse.takeWhile p).reverse, List.all_takeWhile,
    ?_, ?_⟩
  · rw [List.all_reverse]
    exact List.all_takeWhile
  · unfold strip
    rw [List.append_assoc, ← List.reverse_append, List.takeWhile_append_dropWhile,
      List.reverse_reverse, List.takeWhile_append_dropWhile]

theorem strip_sublist (p : α → Bool) (list : List α) : (strip p list).Sublist list := by
  have back : (strip p list).Sublist (list.dropWhile p) := by
    have dropped := (List.dropWhile_sublist (l := (list.dropWhile p).reverse) p).reverse
    rw [List.reverse_reverse] at dropped
    exact dropped
  exact back.trans (List.dropWhile_sublist p)

theorem head?_dropWhile (p : α → Bool) (list : List α) :
    ∀ entry ∈ (list.dropWhile p).head?, p entry = false := by
  intro entry found
  have kept := List.head?_dropWhile_not p list
  rw [Option.mem_def.mp found] at kept
  exact kept

theorem head?_strip (p : α → Bool) (list : List α) :
    ∀ entry ∈ (strip p list).head?, p entry = false := by
  intro entry found
  -- what is dropped at the end does not change the beginning
  have frame : list.dropWhile p = strip p list ++
      ((list.dropWhile p).reverse.takeWhile p).reverse := by
    unfold strip
    rw [← List.reverse_append, List.takeWhile_append_dropWhile, List.reverse_reverse]
  refine head?_dropWhile p list entry ?_
  rw [frame, List.head?_append, Option.mem_def.mp found]
  rfl

theorem getLast?_strip (p : α → Bool) (list : List α) :
    ∀ entry ∈ (strip p list).getLast?, p entry = false := by
  unfold strip
  rw [List.getLast?_reverse]
  exact head?_dropWhile p (list.dropWhile p).reverse

/-- What does not look at accepted entries at either end does not tell a list from what is left of
it. -/
theorem apply_strip {β : Type} {view : List α → β}
    (ignoresFront : ∀ {front : List α}, front.all p = true →
      ∀ list, view (front ++ list) = view list)
    (ignoresBack : ∀ {back : List α}, back.all p = true → ∀ list, view (list ++ back) = view list)
    (list : List α) : view (strip p list) = view list := by
  obtain ⟨front, back, before, after, frame⟩ := strip_frame p list
  calc view (strip p list)
      = view (front ++ strip p list) := (ignoresFront before _).symm
    _ = view (front ++ strip p list ++ back) := (ignoresBack after _).symm
    _ = view list := by rw [← frame]

theorem mem_strip {list : List α} {entry : α} (member : entry ∈ list)
    (kept : p entry = false) : entry ∈ strip p list := by
  obtain ⟨front, back, before, after, frame⟩ := strip_frame p list
  rw [frame, List.mem_append, List.mem_append] at member
  rcases member with (inFront | inside) | inBack
  · rw [List.all_eq_true.mp before entry inFront] at kept
    cases kept
  · exact inside
  · rw [List.all_eq_true.mp after entry inBack] at kept
    cases kept

private theorem dropWhile_map_of_same {image : α → α} {list : List α}
    (same : ∀ entry ∈ list, p (image entry) = p entry) :
    (list.map image).dropWhile p = (list.dropWhile p).map image := by
  induction list with
  | nil => rfl
  | cons entry rest ih =>
      have here := same entry List.mem_cons_self
      rw [List.map_cons, List.dropWhile_cons, List.dropWhile_cons, here]
      split
      · exact ih (fun other member => same other (List.mem_cons_of_mem _ member))
      · rfl

theorem strip_map {image : α → α} {list : List α}
    (same : ∀ entry ∈ list, p (image entry) = p entry) :
    strip p (list.map image) = (strip p list).map image := by
  unfold strip
  rw [dropWhile_map_of_same same, ← List.map_reverse, dropWhile_map_of_same, List.map_reverse]
  intro entry member
  exact same entry ((List.dropWhile_sublist p).mem (List.mem_reverse.mp member))

end Strip

/-! ### Blank texts -/

@[simp]
theorem isBlankText_nil : isBlankText [] = true := rfl

@[simp]
theorem isBlankText_append (left right : List Char) :
    isBlankText (left ++ right) = (isBlankText left && isBlankText right) := List.all_append

@[simp]
theorem isBlankText_cons (character : Char) (rest : List Char) :
    isBlankText (character :: rest) = (isBlank character && isBlankText rest) := List.all_cons

@[simp]
theorem isBlankText_reverse (text : List Char) :
    isBlankText text.reverse = isBlankText text := List.all_reverse

theorem isBlankText_drop {text : List Char} (blank : isBlankText text = true) (count : Nat) :
    isBlankText (text.drop count) = true :=
  List.all_eq_true.mpr fun character member =>
    List.all_eq_true.mp blank character (List.mem_of_mem_drop member)

theorem trim_of_blank {text : List Char} (blank : isBlankText text = true) : trim text = [] :=
  strip_of_all blank

theorem trim_blank_append {blanks : List Char} (blank : isBlankText blanks = true)
    (text : List Char) : trim (blanks ++ text) = trim text :=
  strip_append_left blank text

theorem trim_append_blank {blanks : List Char} (blank : isBlankText blanks = true)
    (text : List Char) : trim (text ++ blanks) = trim text :=
  strip_append_right blank text

theorem nonBlank_of_blank {text : List Char} (blank : isBlankText text = true) :
    nonBlank text = none := by
  unfold nonBlank
  rw [trim_of_blank blank]
  rfl

/-- Blank fragments add nothing to a description. -/
theorem joinFragments_append_blank {blanks : List Line} (blank : blanks.all isBlankText = true)
    (fragments : List Line) : joinFragments (fragments ++ blanks) = joinFragments fragments := by
  have nothing : blanks.filterMap nonBlank = [] := by
    rw [List.filterMap_eq_nil_iff]
    exact fun line member => nonBlank_of_blank (List.all_eq_true.mp blank line member)
  unfold joinFragments
  rw [List.filterMap_append, nothing, List.append_nil]

/-! ### Indentation -/

theorem indentation_blank_append {margin : List Char} (blank : isBlankText margin = true)
    (line : Line) : indentation (margin ++ line) = margin.length + indentation line := by
  unfold indentation
  rw [List.takeWhile_append_of_pos (List.all_eq_true.mp blank), List.length_append]

theorem take_indentation_blank (line : Line) {count : Nat} (within : count ≤ indentation line) :
    isBlankText (line.take count) = true := by
  have front : line.take count = (line.takeWhile isBlank).take count := by
    rw [← List.takeWhile_append_dropWhile (p := isBlank) (l := line), List.take_append_of_le_length]
    · rw [List.takeWhile_append_dropWhile]
    · exact within
  rw [front]
  refine List.all_eq_true.mpr ?_
  intro character member
  exact List.all_eq_true.mp List.all_takeWhile character (List.mem_of_mem_take member)

theorem indentation_le_length (line : Line) : indentation line ≤ line.length :=
  (List.takeWhile_sublist isBlank).length_le

theorem indentation_drop {line : Line} {count : Nat} (within : count ≤ indentation line) :
    indentation (line.drop count) = indentation line - count := by
  have whole := indentation_blank_append (take_indentation_blank line within) (line.drop count)
  have bound := indentation_le_length line
  rw [List.take_append_drop, List.length_take] at whole
  omega

/-- Dropping no more than the indentation leaves a line as blank as it was. -/
theorem isBlankText_drop_indentation {line : Line} {count : Nat}
    (within : count ≤ indentation line) :
    isBlankText (line.drop count) = isBlankText line := by
  have whole := isBlankText_append (line.take count) (line.drop count)
  rw [List.take_append_drop, take_indentation_blank line within, Bool.true_and] at whole
  exact whole.symm

end DocHarvest.Text
