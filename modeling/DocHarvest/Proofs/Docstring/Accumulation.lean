import DocHarvest.Proofs.Docstring.Partition

/-!
Titled sections add up.

What a titled section says does not depend on the sections before it.  Entries are appended, and a
return value replaces an earlier one only if there is one.
-/

namespace DocHarvest.Docstring

open Text (Line)

/-- What is said by two docstrings in turn, under the description of the first. -/
def followedBy (first second : Docstring) : Docstring :=
  { description := first.description
    parameters := first.parameters ++ second.parameters
    returns := second.returns.or first.returns
    raises := first.raises ++ second.raises
    examples := first.examples ++ second.examples }

/-- What the sections among some lines say, without the description before them. -/
def said (style : Style) (lines : List Line) : Docstring :=
  interpret style empty (outline style lines).sections

@[simp]
theorem followedBy_empty (docstring : Docstring) : docstring.followedBy empty = docstring := by
  simp [followedBy, empty]

theorem followedBy_assoc (first second third : Docstring) :
    (first.followedBy second).followedBy third = first.followedBy (second.followedBy third) := by
  simp [followedBy, List.append_assoc, Option.or_assoc]

/-! ### Sections from any beginning -/

section Titled

variable (topics : Topics)

theorem addSection_eq (docstring : Docstring) (part : Section) :
    addSection topics docstring part = docstring.followedBy (addSection topics empty part) := by
  unfold addSection
  cases Topic.ofTitle part.name with
  | parameters => simp [followedBy, empty]
  | returns => simp [followedBy, empty]
  | raises => simp [followedBy, empty]
  | examples => simp [followedBy, empty]
  | other => exact (followedBy_empty docstring).symm

/-- Sections add the same to every docstring. -/
theorem addSections_eq (docstring : Docstring) (parts : List Section) :
    addSections topics docstring parts = docstring.followedBy (addSections topics empty parts) := by
  induction parts generalizing docstring with
  | nil => exact (followedBy_empty docstring).symm
  | cons part rest ih =>
      calc addSections topics docstring (part :: rest)
          = addSections topics (addSection topics docstring part) rest := rfl
        _ = (docstring.followedBy (addSection topics empty part)).followedBy
              (addSections topics empty rest) := by rw [ih, addSection_eq]
        _ = docstring.followedBy (addSections topics (addSection topics empty part) rest) := by
              rw [followedBy_assoc, ← ih]

theorem addSections_append (docstring : Docstring) (front back : List Section) :
    addSections topics docstring (front ++ back) =
      (addSections topics docstring front).followedBy (addSections topics empty back) := by
  rw [← addSections_eq]
  exact List.foldl_append

end Titled

/-! ### Lines that begin with a section -/

theorem groups_opened {α : Type} {head : Line → Option α} {line : Line}
    (taken : (head line).isSome = true) (rest : List Line) :
    (Text.groups head (line :: rest)).1 = [] := by
  obtain ⟨accepted, found⟩ := Option.isSome_iff_exists.mp taken
  rw [groups_cons_some found]

theorem description_of_begins {style : Style} {lines : List Line} (begins : Begins style lines) :
    (outline style lines).description = [] := by
  match style, lines with
  | .google, line :: rest => exact groups_opened (Google.header?_isSome_iff.mpr begins) rest
  | .numpy, title :: rule :: rest =>
      have titled : Numpy.isTitle title rule = true := Numpy.isTitle_iff.mpr begins
      exact congrArg Outline.description (Numpy.outline_cons_of_title titled rest)
  | .rest, line :: rest => exact groups_opened (FieldList.field?_isSome_iff.mpr begins) rest

/-- Lines that begin with a section of a titled convention add what they say to what stands before
them, and nothing else changes. -/
theorem sections_accumulate {style : Style} (titled : style ≠ .rest) (front : List Line)
    {back : List Line} (begins : Begins style back) :
    (outline style (front ++ back)).description = (outline style front).description ∧
      said style (front ++ back) = (said style front).followedBy (said style back) := by
  have parts := outline_append style front (description_of_begins begins)
  unfold said
  rw [parts]
  refine ⟨rfl, ?_⟩
  cases style with
  | google => exact addSections_append Google.topics empty _ _
  | numpy => exact addSections_append Numpy.topics empty _ _
  | rest => exact absurd rfl titled

set_option maxRecDepth 4000 in
theorem sections_accumulate_seam :
    said .google ((["Scale.", "Args:", "    a: A", "Returns:", "  int: n", "Raises:", " E"] ++
        ["Returns:", " ", "Arguments:", "b (T): B", " more"]).map String.toList) =
      { description := ""
        parameters := [⟨"a", none, "A"⟩, ⟨"b", some "T", "B more"⟩]
        returns := some ⟨some "int", "n"⟩
        raises := [⟨"E", ""⟩]
        examples := [] } ∧
    (outline .numpy ((["Scale.", "--", "Returns", "-", "int", "Raises"] ++
        ["Returns", "=", "str", " s"]).map String.toList)).description = [] ∧
    said .numpy ((["Scale.", "--", "Returns", "-", "int", "Raises"] ++
        ["Returns", "=", "str", " s"]).map String.toList) =
      { empty with returns := some ⟨some "str", "s"⟩ } := by
  rw [List.map_append, List.map_append]
  refine ⟨?_, ?_, ?_⟩
  · exact (sections_accumulate (by decide) _ (by decide)).2.trans (by decide)
  · exact (sections_accumulate (by decide) _ (by decide)).1.trans (by decide)
  · exact (sections_accumulate (by decide) _ (by decide)).2.trans (by decide)

end DocHarvest.Docstring
