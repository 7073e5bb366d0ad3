import Mathlib.Data.List.Forall2
import DocHarvest.Docstring.Parse
import DocHarvest.Proofs.Docstring.SharedMargin
import DocHarvest.Proofs.Text.LineBreaks

/-!
Blank lines at the ends of a docstring.

No convention takes a blank line for the boundary of a section or of an entry.  Blank lines at the
beginning go to the description and those at the end to the last section, and neither the
description nor any reader of sections looks at them.
-/

namespace DocHarvest.Docstring

open Text (Line isBlankText)

/-- Lines are followed by blank lines. -/
def Followed (short long : List Line) : Prop :=
  ∃ blanks : List Line, blanks.all isBlankText = true ∧ long = short ++ blanks

theorem Followed.refl (lines : List Line) : Followed lines lines :=
  ⟨[], rfl, (List.append_nil lines).symm⟩

theorem Followed.cons {short long : List Line} (followed : Followed short long) (line : Line) :
    Followed (line :: short) (line :: long) := by
  obtain ⟨blanks, blank, rfl⟩ := followed
  exact ⟨blanks, blank, rfl⟩

theorem Followed.joinFragments {short long : List Line} (followed : Followed short long) :
    Text.joinFragments long = Text.joinFragments short := by
  obtain ⟨blanks, blank, rfl⟩ := followed
  exact Text.joinFragments_append_blank blank short

theorem Followed.trim_unlines {short long : List Line} (followed : Followed short long) :
    Text.trim (Text.unlines long) = Text.trim (Text.unlines short) := by
  obtain ⟨blanks, blank, rfl⟩ := followed
  exact Text.trim_unlines_append_blank blank short

theorem Followed.dedent {short long : List Line} (followed : Followed short long) :
    Followed (dedent short) (dedent long) := by
  obtain ⟨blanks, blank, rfl⟩ := followed
  refine ⟨_, ?_, dedent_append_blank blank short⟩
  rw [List.all_map, List.all_eq_true]
  intro line member
  exact Text.isBlankText_drop (List.all_eq_true.mp blank line member) _

/-! ### Groups of lines -/

section Groups

variable {α : Type} {head : Line → Option α}

/-- Heads that are the same, with lines that are followed by blank lines. -/
def GroupFollowed (short long : α × List Line) : Prop :=
  short.1 = long.1 ∧ Followed short.2 long.2

theorem groups_cons_none {line : Line} (passed : head line = none) (rest : List Line) :
    Text.groups head (line :: rest) =
      (line :: (Text.groups head rest).1, (Text.groups head rest).2) := by
  rw [Text.groups, passed]

theorem groups_cons_some {line : Line} {accepted : α} (taken : head line = some accepted)
    (rest : List Line) :
    Text.groups head (line :: rest) =
      ([], (accepted, (Text.groups head rest).1) :: (Text.groups head rest).2) := by
  rw [Text.groups, taken]

variable (passes : ∀ line, isBlankText line = true → head line = none)

include passes

theorem groups_blank_append {blanks : List Line} (blank : blanks.all isBlankText = true)
    (lines : List Line) :
    Text.groups head (blanks ++ lines) =
      (blanks ++ (Text.groups head lines).1, (Text.groups head lines).2) := by
  induction blanks with
  | nil => rfl
  | cons line rest ih =>
      rw [List.all_cons, Bool.and_eq_true] at blank
      rw [List.cons_append, groups_cons_none (passes line blank.1), ih blank.2]
      rfl

theorem groups_append_blank {blanks : List Line} (blank : blanks.all isBlankText = true)
    (lines : List Line) :
    Followed (Text.groups head lines).1 (Text.groups head (lines ++ blanks)).1 ∧
      List.Forall₂ GroupFollowed (Text.groups head lines).2
        (Text.groups head (lines ++ blanks)).2 := by
  induction lines with
  | nil =>
      have all := groups_blank_append passes blank []
      rw [List.append_nil] at all
      rw [List.nil_append, all]
      exact ⟨⟨blanks, blank, List.append_nil blanks⟩, .nil⟩
  | cons line rest ih =>
      rw [List.cons_append]
      cases taken : head line with
      | none =>
          rw [groups_cons_none taken, groups_cons_none taken]
          exact ⟨ih.1.cons line, ih.2⟩
      | some accepted =>
          rw [groups_cons_some taken, groups_cons_some taken]
          exact ⟨.refl [], .cons ⟨rfl, ih.1⟩ ih.2⟩

/-- What is read from each group alike is read from all groups alike. -/
theorem map_groups_append_blank {β : Type} {read : α × List Line → β}
    (alike : ∀ short long, GroupFollowed short long → read long = read short)
    {blanks : List Line} (blank : blanks.all isBlankText = true) (lines : List Line) :
    (Text.groups head (lines ++ blanks)).2.map read = (Text.groups head lines).2.map read := by
  have related := (groups_append_blank passes blank lines).2
  generalize (Text.groups head lines).2 = found, (Text.groups head (lines ++ blanks)).2 = others
    at related
  induction related with
  | nil => rfl
  | cons first _rest ih => rw [List.map_cons, List.map_cons, alike _ _ first, ih]

end Groups

/-! ### Sections and entries -/

theorem parameterOf_followed {short long : List Line} (followed : Followed short long)
    (name : Line) (typeName : Option Line) :
    parameterOf name typeName long = parameterOf name typeName short := by
  unfold parameterOf
  rw [followed.joinFragments]

theorem returnOf_followed {short long : List Line} (followed : Followed short long)
    (typeName : Option Line) : returnOf typeName long = returnOf typeName short := by
  unfold returnOf
  rw [followed.joinFragments]

theorem raiseOf_followed {short long : List Line} (followed : Followed short long)
    (name : Line) : raiseOf name long = raiseOf name short := by
  unfold raiseOf
  rw [followed.joinFragments]

theorem isCodeLine_of_blank (afterCode : Bool) {line : Line} (blank : isBlankText line = true) :
    isCodeLine afterCode line = false := by
  have nothing : Text.trimStart line = [] := Text.dropWhile_of_all blank
  unfold isCodeLine
  rw [nothing]
  rfl

theorem codeRunsFrom_blank {blanks : List Line} (blank : blanks.all isBlankText = true)
    (run : List Line) : codeRunsFrom run blanks = codeRunsFrom run [] := by
  induction blanks generalizing run with
  | nil => rfl
  | cons line rest ih =>
      rw [List.all_cons, Bool.and_eq_true] at blank
      have passed := isCodeLine_of_blank (!run.isEmpty) blank.1
      simp only [codeRunsFrom, passed, ih blank.2, Bool.false_eq_true, if_false]
      cases run with
      | nil => rfl
      | cons last run => rfl

theorem codeRunsFrom_append_blank {blanks : List Line} (blank : blanks.all isBlankText = true)
    (run lines : List Line) : codeRunsFrom run (lines ++ blanks) = codeRunsFrom run lines := by
  induction lines generalizing run with
  | nil => exact codeRunsFrom_blank blank run
  | cons line rest ih => simp only [List.cons_append, codeRunsFrom, ih]

theorem exampleBlocks_followed {short long : List Line} (followed : Followed short long) :
    exampleBlocks long = exampleBlocks short := by
  obtain ⟨blanks, blank, rfl⟩ := followed
  unfold exampleBlocks
  rw [codeRunsFrom_append_blank blank]

/-! ### Titled conventions -/

/-- The readers of a titled convention do not look at blank lines at the end of a section. -/
structure Topics.IgnoreBlanks (topics : Topics) : Prop where
  parameters : ∀ {short long}, Followed short long →
    topics.parameters long = topics.parameters short
  returns : ∀ {short long}, Followed short long → topics.returns long = topics.returns short
  raises : ∀ {short long}, Followed short long → topics.raises long = topics.raises short

theorem dropWhile_followed {short long : List Line} (followed : Followed short long) :
    short.dropWhile isBlankText = [] ∧ long.dropWhile isBlankText = [] ∨
      ∃ first rest more, short.dropWhile isBlankText = first :: rest ∧
        long.dropWhile isBlankText = first :: more ∧ Followed rest more := by
  obtain ⟨blanks, blank, rfl⟩ := followed
  rw [List.dropWhile_append]
  cases kept : short.dropWhile isBlankText with
  | nil => exact Or.inl ⟨rfl, Text.dropWhile_of_all blank⟩
  | cons first rest =>
      exact Or.inr ⟨first, rest, rest ++ blanks, rfl, rfl, blanks, blank, rfl⟩

namespace Google

theorem header?_of_blank (line : Line) (blank : isBlankText line = true) : header? line = none := by
  have nothing : Text.trimEnd line = [] := by
    unfold Text.trimEnd
    rw [Text.dropWhile_of_all (by rw [List.all_reverse]; exact blank)]
    rfl
  unfold header?
  rw [nothing]
  split
  · rfl
  · rfl

theorem parameterHead?_of_blank (line : Line) (blank : isBlankText line = true) :
    parameterHead? line = none := by
  unfold parameterHead?
  rw [Text.trim_of_blank blank]
  split
  · rfl
  · rfl

theorem raiseHead?_of_blank (line : Line) (blank : isBlankText line = true) :
    raiseHead? line = none := by
  unfold raiseHead?
  rw [blank]
  rfl

theorem returns_followed {short long : List Line} (followed : Followed short long) :
    returns long = returns short := by
  unfold returns
  rcases dropWhile_followed followed with ⟨none, also⟩ | ⟨first, rest, more, here, there, tail⟩
  · rw [none, also]
  · rw [here, there]
    dsimp only
    cases Text.splitOnce [':'] (Text.trim first) with
    | none => exact congrArg some (returnOf_followed (tail.cons first) none)
    | some parts => exact congrArg some (returnOf_followed (tail.cons parts.2) _)

theorem topics_ignoreBlanks : topics.IgnoreBlanks where
  parameters := by
    rintro short long ⟨blanks, blank, rfl⟩
    refine map_groups_append_blank parameterHead?_of_blank ?_ blank short
    rintro ⟨⟨head, text⟩, short⟩ ⟨_, long⟩ ⟨rfl, followed⟩
    exact parameterOf_followed (followed.cons text) _ _
  returns := returns_followed
  raises := by
    rintro short long ⟨blanks, blank, rfl⟩
    refine map_groups_append_blank raiseHead?_of_blank ?_ blank short
    rintro ⟨⟨exception, text⟩, short⟩ ⟨_, long⟩ ⟨rfl, ⟨blanks, blank, rfl⟩⟩
    exact raiseOf_followed ⟨blanks, blank, (List.append_assoc text short blanks).symm⟩ exception

end Google

namespace Numpy

theorem entryHead?_of_blank (line : Line) (blank : isBlankText line = true) :
    entryHead? line = none := by
  unfold entryHead?
  rw [blank]
  rfl

theorem isUnderline_of_blank {line : Line} (blank : isBlankText line = true) :
    isUnderline line = false := by
  unfold isUnderline
  rw [Text.trim_of_blank blank]
  rfl

theorem isTitle_of_blank_line {line next : Line} (blank : isBlankText line = true) :
    isTitle line next = false := by
  unfold isTitle
  rw [blank, Bool.not_true, Bool.and_false, Bool.false_and]

theorem isTitle_of_blank_next {line next : Line} (blank : isBlankText next = true) :
    isTitle line next = false := by
  unfold isTitle
  rw [isUnderline_of_blank blank, Bool.false_and, Bool.false_and]

theorem any_indented_followed {short long : List Line} (followed : Followed short long) :
    (long.any fun line => !isBlankText line && 0 < Text.indentation line) =
      short.any fun line => !isBlankText line && 0 < Text.indentation line := by
  obtain ⟨blanks, blank, rfl⟩ := followed
  have nothing : (blanks.any fun line => !isBlankText line && 0 < Text.indentation line) = false := by
    rw [List.any_eq_false]
    intro line member
    rw [List.all_eq_true.mp blank line member]
    exact Bool.false_ne_true
  rw [List.any_append, nothing, Bool.or_false]

theorem returns_followed {short long : List Line} (followed : Followed short long) :
    returns long = returns short := by
  unfold returns
  rcases dropWhile_followed followed with ⟨none, also⟩ | ⟨first, rest, more, here, there, tail⟩
  · rw [none, also]
  · rw [here, there]
    simp only [any_indented_followed tail, returnOf_followed tail,
      returnOf_followed (tail.cons first)]

theorem topics_ignoreBlanks : topics.IgnoreBlanks where
  parameters := by
    rintro short long ⟨blanks, blank, rfl⟩
    refine map_groups_append_blank entryHead?_of_blank ?_ blank short
    rintro ⟨head, short⟩ ⟨_, long⟩ ⟨rfl, followed⟩
    simp only [parameterOf_followed followed]
  returns := returns_followed
  raises := by
    rintro short long ⟨blanks, blank, rfl⟩
    refine map_groups_append_blank entryHead?_of_blank ?_ blank short
    rintro ⟨head, short⟩ ⟨_, long⟩ ⟨rfl, followed⟩
    exact raiseOf_followed followed head

theorem outline_cons_of_not_title {line next : Line} (plain : isTitle line next = false)
    (rest : List Line) :
    outline (line :: next :: rest) =
      ⟨line :: (outline (next :: rest)).description, (outline (next :: rest)).sections⟩ := by
  rw [outline, plain]
  rfl

theorem outline_cons_of_title {line next : Line} (title : isTitle line next = true)
    (rest : List Line) :
    outline (line :: next :: rest) =
      ⟨[], ⟨Text.trim line, (outline rest).description⟩ :: (outline rest).sections⟩ := by
  rw [outline, title]
  rfl

end Numpy

/-! ### Outlines -/

/-- Sections of one name, the second with blank lines at its end. -/
def SectionFollowed (short long : Section) : Prop :=
  short.name = long.name ∧ Followed short.lines long.lines

/-- The second outline has blank lines at the end of its last part. -/
structure OutlineFollowed (short long : Outline) : Prop where
  description : Followed short.description long.description
  sections : List.Forall₂ SectionFollowed short.sections long.sections

theorem Numpy.outline_blank_append {blanks : List Line} (blank : blanks.all isBlankText = true)
    (lines : List Line) :
    outline (blanks ++ lines) =
      ⟨blanks ++ (outline lines).description, (outline lines).sections⟩ := by
  induction blanks with
  | nil => rfl
  | cons line rest ih =>
      rw [List.all_cons, Bool.and_eq_true] at blank
      rw [List.cons_append]
      have inner := ih blank.2
      cases after : rest ++ lines with
      | nil =>
          rw [List.append_eq_nil_iff] at after
          obtain ⟨rfl, rfl⟩ := after
          rfl
      | cons next later =>
          rw [after] at inner
          rw [outline_cons_of_not_title (isTitle_of_blank_line blank.1), inner]
          rfl

theorem Numpy.outline_append_blank {blanks : List Line} (blank : blanks.all isBlankText = true)
    (lines : List Line) : OutlineFollowed (outline lines) (outline (lines ++ blanks)) := by
  fun_induction outline lines with
  | case1 =>
      have all := outline_blank_append blank []
      rw [List.append_nil] at all
      rw [List.nil_append, all]
      exact ⟨⟨blanks, blank, List.append_nil blanks⟩, .nil⟩
  | case2 line =>
      cases blanks with
      | nil => exact ⟨.refl _, .nil⟩
      | cons next later =>
          have all := outline_blank_append blank []
          rw [List.append_nil] at all
          rw [List.all_cons, Bool.and_eq_true] at blank
          rw [List.singleton_append, outline_cons_of_not_title (isTitle_of_blank_next blank.1), all]
          refine ⟨⟨next :: later, ?_, ?_⟩, .nil⟩
          · rw [List.all_cons, blank.1, blank.2]
            rfl
          · exact congrArg (line :: ·) (List.append_nil _)
  | case3 line next rest title after ih =>
      rw [List.cons_append, List.cons_append, outline_cons_of_title title]
      exact ⟨.refl [], .cons ⟨rfl, ih.description⟩ ih.sections⟩
  | case4 line next rest plain after ih =>
      rw [Bool.not_eq_true] at plain
      rw [List.cons_append, List.cons_append, outline_cons_of_not_title plain]
      exact ⟨ih.description.cons line, ih.sections⟩

theorem FieldList.field?_of_blank (line : Line) (blank : isBlankText line = true) :
    field? line = none := by
  unfold field?
  rw [Text.trim_of_blank blank]

theorem outline_blank_append (style : Style) {blanks : List Line}
    (blank : blanks.all isBlankText = true) (lines : List Line) :
    outline style (blanks ++ lines) =
      ⟨blanks ++ (outline style lines).description, (outline style lines).sections⟩ := by
  cases style with
  | google =>
      simp only [outline, Google.outline, groups_blank_append Google.header?_of_blank blank]
  | numpy => exact Numpy.outline_blank_append blank lines
  | rest =>
      simp only [outline, FieldList.outline, groups_blank_append FieldList.field?_of_blank blank]

theorem outline_append_blank (style : Style) {blanks : List Line}
    (blank : blanks.all isBlankText = true) (lines : List Line) :
    OutlineFollowed (outline style lines) (outline style (lines ++ blanks)) := by
  cases style with
  | google =>
      obtain ⟨description, sections⟩ := groups_append_blank Google.header?_of_blank blank lines
      refine ⟨description, ?_⟩
      simp only [outline, Google.outline, List.forall₂_map_left_iff, List.forall₂_map_right_iff]
      exact sections
  | numpy => exact Numpy.outline_append_blank blank lines
  | rest =>
      obtain ⟨description, sections⟩ := groups_append_blank FieldList.field?_of_blank blank lines
      refine ⟨description, ?_⟩
      simp only [outline, FieldList.outline, List.forall₂_map_left_iff, List.forall₂_map_right_iff]
      refine sections.imp ?_
      rintro ⟨⟨key, text⟩, short⟩ ⟨_, long⟩ ⟨rfl, followed⟩
      exact ⟨rfl, followed.cons text⟩

/-! ### Docstrings -/

theorem foldl_followed {β : Type} {step : β → Section → β}
    (alike : ∀ state short long, SectionFollowed short long → step state long = step state short)
    {parts others : List Section} (related : List.Forall₂ SectionFollowed parts others)
    (state : β) : others.foldl step state = parts.foldl step state := by
  induction related generalizing state with
  | nil => rfl
  | cons first _rest ih => rw [List.foldl_cons, List.foldl_cons, alike _ _ _ first, ih]

theorem addSection_followed {topics : Topics} (ignores : topics.IgnoreBlanks)
    (docstring : Docstring) (short long : Section) (followed : SectionFollowed short long) :
    addSection topics docstring long = addSection topics docstring short := by
  obtain ⟨name, lines⟩ := followed
  have bodies := lines.dedent
  unfold addSection
  simp only [name, ignores.parameters bodies, ignores.returns bodies, ignores.raises bodies,
    exampleBlocks_followed bodies]

theorem FieldList.addField_followed (draft : Draft) (short long : Section)
    (followed : SectionFollowed short long) : addField draft long = addField draft short := by
  obtain ⟨name, lines⟩ := followed
  unfold addField
  simp only [name, lines.joinFragments, parameterOf_followed lines, returnOf_followed lines,
    raiseOf_followed lines, exampleBlocks_followed lines.dedent]

theorem interpret_followed (style : Style) (docstring : Docstring) {parts others : List Section}
    (related : List.Forall₂ SectionFollowed parts others) :
    interpret style docstring others = interpret style docstring parts := by
  cases style with
  | google => exact foldl_followed (addSection_followed Google.topics_ignoreBlanks) related docstring
  | numpy => exact foldl_followed (addSection_followed Numpy.topics_ignoreBlanks) related docstring
  | rest =>
      simp only [interpret, FieldList.addFields, foldl_followed FieldList.addField_followed related]

theorem ofLines_append_blank (style : Style) {blanks : List Line}
    (blank : blanks.all isBlankText = true) (lines : List Line) :
    ofLines style (lines ++ blanks) = ofLines style lines := by
  have followed := outline_append_blank style blank lines
  unfold ofLines
  simp only [followed.description.trim_unlines, interpret_followed style _ followed.sections]

theorem ofLines_blank_append (style : Style) {blanks : List Line}
    (blank : blanks.all isBlankText = true) (lines : List Line) :
    ofLines style (blanks ++ lines) = ofLines style lines := by
  unfold ofLines
  simp only [outline_blank_append style blank, Text.trim_unlines_blank_append blank]

/-- Blank lines at both ends of a docstring say nothing. -/
theorem ofLines_strip (style : Style) (lines : List Line) :
    ofLines style (Text.strip isBlankText lines) = ofLines style lines :=
  Text.apply_strip (ofLines_blank_append style) (ofLines_append_blank style) lines

end DocHarvest.Docstring
