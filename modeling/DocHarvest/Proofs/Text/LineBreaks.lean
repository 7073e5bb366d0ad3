import DocHarvest.Proofs.Text.Trimming

/-!
Cutting a text into lines and joining lines to a text.

Lines that are joined and cut again are the same, except that an empty last line is lost.  A text
is blank if its lines are.
-/

namespace DocHarvest.Text

/-- A line that holds no end of a line. -/
def Unbroken (line : Line) : Prop :=
  '\n' ∉ line ∧ '\r' ∉ line

instance (line : Line) : Decidable (Unbroken line) :=
  inferInstanceAs (Decidable ('\n' ∉ line ∧ '\r' ∉ line))

theorem Unbroken.append {left right : Line} (first : Unbroken left) (second : Unbroken right) :
    Unbroken (left ++ right) := by
  unfold Unbroken
  rw [List.mem_append, List.mem_append, not_or, not_or]
  exact ⟨⟨first.1, second.1⟩, first.2, second.2⟩

theorem Unbroken.drop {line : Line} (unbroken : Unbroken line) (count : Nat) :
    Unbroken (line.drop count) :=
  ⟨fun member => unbroken.1 (List.mem_of_mem_drop member),
    fun member => unbroken.2 (List.mem_of_mem_drop member)⟩

/-! ### Joined lines -/

@[simp]
theorem unlines_nil : unlines [] = [] := rfl

@[simp]
theorem unlines_singleton (line : Line) : unlines [line] = line := by
  unfold unlines join
  exact List.intercalate_singleton

theorem unlines_cons_cons (first second : Line) (rest : List Line) :
    unlines (first :: second :: rest) = first ++ '\n' :: unlines (second :: rest) := by
  unfold unlines join
  rw [List.intercalate_cons_cons, List.append_assoc]
  rfl

theorem unlines_append {front back : List Line} (front_ne : front ≠ []) (back_ne : back ≠ []) :
    unlines (front ++ back) = unlines front ++ '\n' :: unlines back := by
  obtain ⟨next, later, rfl⟩ := List.exists_cons_of_ne_nil back_ne
  induction front with
  | nil => exact absurd rfl front_ne
  | cons line rest ih =>
      cases rest with
      | nil =>
          rw [List.singleton_append, unlines_cons_cons, unlines_singleton]
      | cons second rest =>
          have inner := ih (List.cons_ne_nil second rest)
          rw [List.cons_append] at inner
          rw [List.cons_append, List.cons_append, unlines_cons_cons, inner, unlines_cons_cons,
            List.append_assoc]
          rfl

theorem isBlankText_unlines (lines : List Line) :
    isBlankText (unlines lines) = lines.all isBlankText := by
  induction lines with
  | nil => rfl
  | cons line rest ih =>
      cases rest with
      | nil =>
          rw [unlines_singleton, List.all_cons, List.all_nil, Bool.and_true]
      | cons second rest =>
          have newline : isBlank '\n' = true := by decide
          rw [unlines_cons_cons, isBlankText_append, isBlankText_cons, newline, Bool.true_and, ih,
            List.all_cons (l := second :: rest)]

theorem trim_unlines_append_blank {blanks : List Line} (blank : blanks.all isBlankText = true)
    (lines : List Line) : trim (unlines (lines ++ blanks)) = trim (unlines lines) := by
  have joined : isBlankText ('\n' :: unlines blanks) = true := by
    rw [isBlankText_cons, isBlankText_unlines, blank]
    decide
  by_cases none : lines = []
  · subst none
    rw [List.nil_append, unlines_nil, trim_of_blank (by rw [isBlankText_unlines]; exact blank)]
    rfl
  · by_cases nothing : blanks = []
    · rw [nothing, List.append_nil]
    · rw [unlines_append none nothing, trim_append_blank joined]

theorem trim_unlines_blank_append {blanks : List Line} (blank : blanks.all isBlankText = true)
    (lines : List Line) : trim (unlines (blanks ++ lines)) = trim (unlines lines) := by
  have joined : isBlankText (unlines blanks ++ ['\n']) = true := by
    rw [isBlankText_append, isBlankText_unlines, blank]
    decide
  by_cases none : lines = []
  · subst none
    rw [List.append_nil, unlines_nil, trim_of_blank (by rw [isBlankText_unlines]; exact blank)]
    rfl
  · by_cases nothing : blanks = []
    · rw [nothing, List.nil_append]
    · rw [unlines_append nothing none, List.append_cons, trim_blank_append joined]

/-! ### Cut texts -/

theorem finishLine_reverse {line : Line} (unbroken : '\r' ∉ line) :
    finishLine line.reverse = line := by
  unfold finishLine
  split
  · next rest reversed =>
      have last : '\r' ∈ line.reverse := by
        rw [reversed]
        exact List.mem_cons_self
      exact absurd (List.mem_reverse.mp last) unbroken
  · exact List.reverse_reverse line

theorem isBlankText_finishLine (line : List Char) :
    isBlankText (finishLine line) = isBlankText line := by
  unfold finishLine
  split
  · next rest =>
      have carriage : isBlank '\r' = true := by decide
      rw [isBlankText_reverse, isBlankText_cons, carriage, Bool.true_and]
  · exact isBlankText_reverse line

theorem mem_of_mem_finishLine {line : List Char} {character : Char}
    (member : character ∈ finishLine line) : character ∈ line := by
  unfold finishLine at member
  split at member
  · exact List.mem_cons_of_mem _ (List.mem_reverse.mp member)
  · exact List.mem_reverse.mp member

theorem linesFrom_append {line : Line} (unbroken : '\n' ∉ line) (known rest : List Char) :
    linesFrom known (line ++ rest) = linesFrom (line.reverse ++ known) rest := by
  induction line generalizing known with
  | nil => rfl
  | cons character line ih =>
      rw [List.mem_cons, not_or] at unbroken
      have other : character ≠ '\n' := fun same => unbroken.1 same.symm
      rw [List.cons_append, linesFrom, if_neg other, ih unbroken.2, List.reverse_cons,
        List.append_assoc]
      rfl

theorem lines_append_newline {line : Line} (unbroken : Unbroken line) (rest : List Char) :
    lines (line ++ '\n' :: rest) = line :: lines rest := by
  unfold lines
  rw [linesFrom_append unbroken.1, List.append_nil, linesFrom, if_pos rfl,
    finishLine_reverse unbroken.2]

theorem lines_of_single {line : Line} (single : '\n' ∉ line) :
    lines line = if line.isEmpty then [] else [line] := by
  have cut := linesFrom_append single [] []
  rw [List.append_nil, List.append_nil, linesFrom, List.isEmpty_reverse, List.reverse_reverse] at cut
  exact cut

/-- Joined lines are found again, save an empty one at the end. -/
theorem lines_unlines {source : List Line} (unbroken : ∀ line ∈ source, Unbroken line) :
    lines (unlines source) = source ∨ lines (unlines source) ++ [[]] = source := by
  induction source with
  | nil => exact Or.inl rfl
  | cons line rest ih =>
      have here : Unbroken line := unbroken line List.mem_cons_self
      cases rest with
      | nil =>
          rw [unlines_singleton, lines_of_single here.1]
          cases line with
          | nil => exact Or.inr rfl
          | cons character line => exact Or.inl rfl
      | cons second rest =>
          rw [unlines_cons_cons, lines_append_newline here, List.cons_append]
          rcases ih (fun other member => unbroken other (List.mem_cons_of_mem _ member)) with
            whole | short
          · exact Or.inl (congrArg (line :: ·) whole)
          · exact Or.inr (congrArg (line :: ·) short)

theorem mem_linesFrom {known text : List Char} {line : Line} {character : Char}
    (listed : line ∈ linesFrom known text) (member : character ∈ line) :
    character ∈ known ∨ character ∈ text ∧ character ≠ '\n' := by
  induction text generalizing known with
  | nil =>
      unfold linesFrom at listed
      split at listed
      · cases listed
      · rw [List.mem_singleton] at listed
        subst listed
        exact Or.inl (List.mem_reverse.mp member)
  | cons next rest ih =>
      unfold linesFrom at listed
      split at listed
      · rcases List.mem_cons.mp listed with rfl | later
        · exact Or.inl (mem_of_mem_finishLine member)
        · rcases ih later with impossible | ⟨present, other⟩
          · cases impossible
          · exact Or.inr ⟨List.mem_cons_of_mem _ present, other⟩
      · next other =>
          rcases ih listed with known | ⟨present, different⟩
          · rcases List.mem_cons.mp known with rfl | before
            · exact Or.inr ⟨List.mem_cons_self, other⟩
            · exact Or.inl before
          · exact Or.inr ⟨List.mem_cons_of_mem _ present, different⟩

theorem unbroken_of_mem_lines {text : List Char} (plain : '\r' ∉ text) {line : Line}
    (listed : line ∈ lines text) : Unbroken line := by
  constructor
  · intro member
    rcases mem_linesFrom listed member with impossible | ⟨_present, other⟩
    · cases impossible
    · exact other rfl
  · intro member
    rcases mem_linesFrom listed member with impossible | ⟨present, _other⟩
    · cases impossible
    · exact plain present

theorem isBlankText_linesFrom (known text : List Char) :
    (linesFrom known text).all isBlankText = (isBlankText known && isBlankText text) := by
  induction text generalizing known with
  | nil =>
      unfold linesFrom
      cases known with
      | nil => rfl
      | cons character rest =>
          rw [List.isEmpty_cons, if_neg Bool.false_ne_true, List.all_cons, List.all_nil,
            isBlankText_reverse]
          rfl
  | cons next rest ih =>
      rw [linesFrom, isBlankText_cons]
      split
      · next newline =>
          subst newline
          have blank : isBlank '\n' = true := by decide
          rw [List.all_cons, isBlankText_finishLine, ih, blank, isBlankText_nil]
      · rw [ih, isBlankText_cons, Bool.and_assoc, Bool.and_left_comm]

theorem isBlankText_lines (text : List Char) :
    (lines text).all isBlankText = isBlankText text :=
  isBlankText_linesFrom [] text

end DocHarvest.Text
