import DocHarvest.Proofs.Docstring.Layout
import DocHarvest.Proofs.Text.Phrases

/-!
Docstrings put together from parts.

A part that begins with a section boundary adds its sections to those before it and takes nothing
from them.  Lines without a boundary are description, or the rest of the section they follow.
-/

namespace DocHarvest.Docstring

open Text (Line isBlankText indentation Unbroken)

/-! ### Groups of lines -/

section Groups

variable {α : Type} {head : Line → Option α}

theorem groups_append (front : List Line) {back : List Line}
    (opened : (Text.groups head back).1 = []) :
    Text.groups head (front ++ back) =
      ((Text.groups head front).1, (Text.groups head front).2 ++ (Text.groups head back).2) := by
  induction front with
  | nil => exact Prod.ext opened rfl
  | cons line rest ih =>
      rw [List.cons_append]
      cases taken : head line with
      | none => rw [groups_cons_none taken, groups_cons_none taken, ih]
      | some accepted =>
          rw [groups_cons_some taken, groups_cons_some taken, ih]
          rfl

theorem groups_of_passed {lines : List Line} (passed : ∀ line ∈ lines, head line = none) :
    Text.groups head lines = (lines, []) := by
  induction lines with
  | nil => rfl
  | cons line rest ih =>
      rw [groups_cons_none (passed line List.mem_cons_self),
        ih fun other member => passed other (List.mem_cons_of_mem _ member)]

theorem groups_headed {line : Line} {accepted : α} {body : List Line}
    (taken : head line = some accepted) (passed : ∀ line ∈ body, head line = none) :
    Text.groups head (line :: body) = ([], [(accepted, body)]) := by
  rw [groups_cons_some taken, groups_of_passed passed]

/-- Blocks that each begin with an accepted line, and hold no other, are the groups. -/
theorem groups_flatMap {β : Type} {blocks : List β} {first : β → Line} {more : β → List Line}
    {accepted : β → α} (taken : ∀ block ∈ blocks, head (first block) = some (accepted block))
    (passed : ∀ block ∈ blocks, ∀ line ∈ more block, head line = none) :
    Text.groups head (blocks.flatMap fun block => first block :: more block) =
      ([], blocks.map fun block => (accepted block, more block)) := by
  induction blocks with
  | nil => rfl
  | cons block rest ih =>
      have later := ih (fun other member => taken other (List.mem_cons_of_mem _ member))
        (fun other member => passed other (List.mem_cons_of_mem _ member))
      have here := groups_headed (taken block List.mem_cons_self) (passed block List.mem_cons_self)
      rw [List.flatMap_cons, groups_append _ (by rw [later]), here, later]
      rfl

end Groups

/-! ### Boundaries -/

/-- A line without indentation that ends with a colon behind something. -/
def Google.Heading (line : Line) : Prop :=
  indentation line = 0 ∧
    ∃ title, Text.trimEnd line = title ++ [':'] ∧ isBlankText title = false

/-- A line of hyphens only, or of equals signs only, blanks around them aside. -/
def Numpy.Underline (line : Line) : Prop :=
  ∃ length, Text.trim line = List.replicate (length + 1) '-' ∨
    Text.trim line = List.replicate (length + 1) '='

/-- A line that begins with something between two colons, blanks before them aside. -/
def FieldList.FieldLine (line : Line) : Prop :=
  ∃ key text, Text.trim line = ':' :: key ++ ':' :: text ∧ ':' ∉ key ∧ isBlankText key = false

theorem Google.header?_isSome_iff {line : Line} :
    (header? line).isSome = true ↔ Heading line := by
  unfold header? Heading
  constructor
  · intro found
    split at found
    · cases found
    · next flush =>
        rw [Decidable.not_not] at flush
        cases cut : Text.withoutLast ':' (Text.trimEnd line) with
        | none =>
            rw [cut] at found
            cases found
        | some title =>
            refine ⟨flush, title, Text.withoutLast_eq_some.mp cut, ?_⟩
            cases kind : isBlankText title with
            | false => rfl
            | true =>
                rw [cut, Option.bind_some, Text.nonBlank_of_blank kind] at found
                cases found
  · rintro ⟨flush, title, ends, solid⟩
    have kept := Text.nonBlank_of_solid solid
    rw [if_neg (not_not.mpr flush), Text.withoutLast_eq_some.mpr ends, Option.bind_some, kept]
    rfl

theorem Numpy.isUnderline_iff {line : Line} : isUnderline line = true ↔ Underline line := by
  have made : ∀ mark : Char, (Text.trim line ≠ [] ∧ (Text.trim line).all (· == mark) = true) ↔
      ∃ length, Text.trim line = List.replicate (length + 1) mark := by
    intro mark
    constructor
    · rintro ⟨nonempty, all⟩
      obtain ⟨length, enough⟩ := Nat.exists_eq_succ_of_ne_zero
        (fun none => nonempty (List.length_eq_zero_iff.mp none))
      refine ⟨length, List.eq_replicate_iff.mpr ⟨enough, ?_⟩⟩
      intro character member
      exact eq_of_beq (List.all_eq_true.mp all character member)
    · rintro ⟨length, same⟩
      rw [same]
      refine ⟨List.cons_ne_nil _ _, List.all_eq_true.mpr ?_⟩
      intro character member
      rw [List.eq_of_mem_replicate member]
      exact beq_self_eq_true mark
  unfold isUnderline Underline
  rw [exists_or, ← made '-', ← made '=', ← and_or_left, Bool.and_eq_true, Bool.or_eq_true,
    Bool.not_eq_true', List.isEmpty_eq_false_iff]

theorem FieldList.field?_isSome_iff {line : Line} :
    (field? line).isSome = true ↔ FieldLine line := by
  unfold field? FieldLine
  constructor
  · intro found
    split at found
    · next rest stripped =>
        cases cut : Text.splitOnce [':'] rest with
        | none =>
            rw [cut] at found
            cases found
        | some parts =>
            obtain ⟨key, text⟩ := parts
            obtain ⟨whole, absent⟩ := Text.splitOnce_mark_eq_some cut
            refine ⟨key, text, by rw [stripped, whole]; rfl, absent, ?_⟩
            cases kind : isBlankText key with
            | false => rfl
            | true =>
                simp only [cut, Option.bind_some, Text.nonBlank_of_blank kind] at found
                cases found
    · cases found
  · rintro ⟨key, text, stripped, absent, solid⟩
    rw [stripped]
    simp only [List.cons_append, Text.splitOnce_mark absent, Option.bind_some,
      Text.nonBlank_of_solid solid, Option.map_some, Option.isSome_some]

/-- The lines at which a convention begins a section, or by which it tells that one begins. -/
def Boundary : Style → Line → Prop
  | .google => Google.Heading
  | .numpy => Numpy.Underline
  | .rest => FieldList.FieldLine

instance (line : Line) : Decidable (FieldList.FieldLine line) :=
  decidable_of_iff _ FieldList.field?_isSome_iff

instance (line : Line) : Decidable (Numpy.Underline line) :=
  decidable_of_iff _ Numpy.isUnderline_iff

instance (style : Style) (line : Line) : Decidable (Boundary style line) :=
  match style with
  | .google => decidable_of_iff _ Google.header?_isSome_iff
  | .numpy => inferInstanceAs (Decidable (Numpy.Underline line))
  | .rest => inferInstanceAs (Decidable (FieldList.FieldLine line))

theorem eq_none_of_not_isSome {α : Type} {found : Option α} {accepted : Prop}
    (agrees : found.isSome = true ↔ accepted) (refused : ¬ accepted) : found = none := by
  rw [← agrees, Bool.not_eq_true, Option.isSome_eq_false_iff, Option.isNone_iff_eq_none] at refused
  exact refused

/-! ### Outlines -/

theorem Numpy.outline_of_plain {lines : List Line} (plain : ∀ line ∈ lines, ¬ Underline line) :
    outline lines = ⟨lines, []⟩ := by
  fun_induction outline lines with
  | case1 => rfl
  | case2 line => rfl
  | case3 line next rest title _after _ih =>
      unfold isTitle at title
      rw [Bool.and_eq_true, Bool.and_eq_true] at title
      refine absurd (isUnderline_iff.mp title.1.1) (plain next ?_)
      exact List.mem_cons_of_mem _ List.mem_cons_self
  | case4 line next rest _plainLine after ih =>
      have later : after = ⟨next :: rest, []⟩ :=
        ih fun other member => plain other (List.mem_cons_of_mem _ member)
      rw [later]

theorem outline_of_plain (style : Style) {lines : List Line}
    (plain : ∀ line ∈ lines, ¬ Boundary style line) : outline style lines = ⟨lines, []⟩ := by
  cases style with
  | google =>
      have passed : ∀ line ∈ lines, Google.header? line = none :=
        fun line member => eq_none_of_not_isSome Google.header?_isSome_iff (plain line member)
      simp only [outline, Google.outline, groups_of_passed passed, List.map_nil]
  | numpy => exact Numpy.outline_of_plain plain
  | rest =>
      have passed : ∀ line ∈ lines, FieldList.field? line = none :=
        fun line member => eq_none_of_not_isSome FieldList.field?_isSome_iff (plain line member)
      simp only [outline, FieldList.outline, groups_of_passed passed, List.map_nil]

theorem Numpy.opened_cases {lines : List Line} (opened : (outline lines).description = []) :
    lines = [] ∨ ∃ line next rest, lines = line :: next :: rest ∧ isTitle line next = true := by
  match lines, opened with
  | [], _ => exact Or.inl rfl
  | line :: next :: rest, opened =>
      refine Or.inr ⟨line, next, rest, rfl, ?_⟩
      cases title : isTitle line next with
      | true => rfl
      | false =>
          rw [outline_cons_of_not_title title] at opened
          cases opened

theorem Numpy.outline_append (front : List Line) {back : List Line}
    (opened : (outline back).description = []) :
    outline (front ++ back) =
      ⟨(outline front).description, (outline front).sections ++ (outline back).sections⟩ := by
  fun_induction outline front with
  | case1 =>
      rw [List.nil_append, List.nil_append, ← opened]
  | case2 line =>
      rcases opened_cases opened with rfl | ⟨title, rule, rest, rfl, titled⟩
      · rfl
      · -- a title is no underline, so the line before it is no title
        have plain : isTitle line title = false := by
          unfold isTitle at titled ⊢
          rw [Bool.and_eq_true, Bool.not_eq_true'] at titled
          rw [titled.2, Bool.false_and, Bool.false_and]
        rw [List.singleton_append, outline_cons_of_not_title plain, opened]
        rfl
  | case3 line next rest title _after ih =>
      rw [List.cons_append, List.cons_append, outline_cons_of_title title, ih]
      rfl
  | case4 line next rest plain _after ih =>
      rw [Bool.not_eq_true] at plain
      rw [List.cons_append, List.cons_append, outline_cons_of_not_title plain]
      rw [List.cons_append] at ih
      rw [ih]

/-- Lines that begin with a section add their sections to those of the lines before them. -/
theorem outline_append (style : Style) (front : List Line) {back : List Line}
    (opened : (outline style back).description = []) :
    outline style (front ++ back) =
      ⟨(outline style front).description,
        (outline style front).sections ++ (outline style back).sections⟩ := by
  cases style with
  | google =>
      have first : (Text.groups Google.header? back).1 = [] := opened
      simp only [outline, Google.outline, groups_append front first, List.map_append]
  | numpy => exact Numpy.outline_append front opened
  | rest =>
      have first : (Text.groups FieldList.field? back).1 = [] := opened
      simp only [outline, FieldList.outline, groups_append front first, List.map_append]

/-! ### Titled sections -/

section Titled

variable {style : Style} {topics : Topics} (titled : interpret style = addSections topics)

include titled

theorem ofLines_append (front : List Line) {back : List Line}
    (opened : (outline style back).description = []) :
    ofLines style (front ++ back) =
      addSections topics (ofLines style front) (outline style back).sections := by
  unfold ofLines
  rw [outline_append style front opened, titled]
  unfold addSections
  rw [List.foldl_append]

/-- A section after blank lines adds what it says to what stands before. -/
theorem ofLines_section {front blanks back : List Line} {part : Section}
    (blank : blanks.all isBlankText = true) (whole : outline style back = ⟨[], [part]⟩) :
    ofLines style (front ++ (blanks ++ back)) = addSection topics (ofLines style front) part := by
  have opened : (outline style back).description = [] := by rw [whole]
  rw [← List.append_assoc, ofLines_append titled _ opened, ofLines_append_blank style blank, whole]
  rfl

end Titled

/-! ### Texts without a margin -/

/-- Some line has no indentation, unless all are blank. -/
def Flush (lines : List Line) : Prop :=
  ∀ line ∈ lines, isBlankText line = false →
    ∃ lowest ∈ lines, isBlankText lowest = false ∧ indentation lowest = 0

theorem Flush.of_blank {lines : List Line} (blank : lines.all isBlankText = true) :
    Flush lines := by
  intro line member solid
  rw [List.all_eq_true.mp blank line member] at solid
  cases solid

theorem Flush.of_mem {lines : List Line} {line : Line} (member : line ∈ lines)
    (solid : isBlankText line = false) (low : indentation line = 0) : Flush lines :=
  fun _other _member _solid => ⟨line, member, solid, low⟩

theorem Flush.append {front back : List Line} (first : Flush front) (second : Flush back) :
    Flush (front ++ back) := by
  intro line member solid
  rcases List.mem_append.mp member with inFront | inBack
  · obtain ⟨lowest, present, low⟩ := first line inFront solid
    exact ⟨lowest, List.mem_append_left _ present, low⟩
  · obtain ⟨lowest, present, low⟩ := second line inBack solid
    exact ⟨lowest, List.mem_append_right _ present, low⟩

theorem Flush.commonMargin_eq {lines : List Line} (flush : Flush lines) :
    commonMargin lines = 0 := by
  cases kind : lines.all isBlankText with
  | true =>
      have nothing := commonMargin_append_blank kind []
      rw [List.nil_append] at nothing
      exact nothing
  | false =>
      obtain ⟨line, member, solid⟩ := List.all_eq_false.mp kind
      rw [Bool.not_eq_true] at solid
      obtain ⟨lowest, present, low, zero⟩ := flush line member solid
      have least := commonMargin_le present low
      omega

theorem Flush.dedent_eq {lines : List Line} (flush : Flush lines) : dedent lines = lines := by
  unfold dedent
  rw [flush.commonMargin_eq]
  exact List.map_id _

/-- Joined lines say what the lines say. -/
theorem Flush.parse_unlines {lines : List Line} (style : Style) (flush : Flush lines)
    (unbroken : ∀ line ∈ lines, Unbroken line) :
    parse style (String.ofList (Text.unlines lines)) = ofLines style lines := by
  rw [parse_eq_ofLines style (by rw [String.toList_ofList]; exact unbroken_lines_unlines unbroken),
    String.toList_ofList, strip_lines_unlines unbroken, ← strip_dedent, flush.dedent_eq,
    ofLines_strip]

end DocHarvest.Docstring
