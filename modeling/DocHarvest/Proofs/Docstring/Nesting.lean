import DocHarvest.Proofs.Docstring.Content
import DocHarvest.Proofs.Docstring.FixedPoints

/-!
Literals in a deeper block.

A literal that is moved into a deeper block has the same spaces before every line but its first.
Its reader does not see them, as long as they leave the tab stops where they were.
-/

namespace DocHarvest.Docstring

open Text (Line isBlankText strip)

def nestLines (depth : Nat) : List Line → List Line
  | [] => []
  | first :: rest => first :: indent (spaces depth) rest

/-- A text with spaces after every newline, also after one at its very end. -/
def nest (depth : Nat) (text : List Char) : List Char :=
  text.flatMap fun character =>
    if character = '\n' then '\n' :: spaces depth else [character]

/-! ### Tab stops -/

theorem expandTabsFrom_spaces (column depth : Nat) (line : Line) :
    expandTabsFrom column (spaces depth ++ line) =
      spaces depth ++ expandTabsFrom (column + depth) line := by
  induction depth generalizing column with
  | zero => rfl
  | succ depth ih =>
      have visible : ' ' ≠ '\t' := by decide
      have columns : column + 1 + depth = column + (depth + 1) := by omega
      unfold spaces at ih ⊢
      rw [List.replicate_succ, List.cons_append, expandTabsFrom, if_neg visible, ih, columns]
      rfl

/-- Tab stops stand at every eighth column. -/
theorem expandTabsFrom_congr {column other : Nat} (same : column % 8 = other % 8) (line : Line) :
    expandTabsFrom column line = expandTabsFrom other line := by
  induction line generalizing column other with
  | nil => rfl
  | cons character rest ih =>
      rw [expandTabsFrom, expandTabsFrom]
      split
      · have stop : (column + (8 - column % 8)) % 8 = (other + (8 - other % 8)) % 8 := by omega
        dsimp only
        rw [ih stop, same]
      · have next : (column + 1) % 8 = (other + 1) % 8 := by omega
        rw [ih next]

theorem expandTabsFrom_of_not_mem {line : Line} (absent : '\t' ∉ line) (column : Nat) :
    expandTabsFrom column line = line := by
  induction line generalizing column with
  | nil => rfl
  | cons character rest ih =>
      rw [List.mem_cons, not_or] at absent
      have visible : character ≠ '\t' := fun same => absent.1 same.symm
      rw [expandTabsFrom, if_neg visible, ih absent.2]

theorem expandTabs_spaces {depth : Nat} {line : Line} (aligned : '\t' ∉ line ∨ 8 ∣ depth) :
    expandTabs (spaces depth ++ line) = spaces depth ++ expandTabs line := by
  unfold expandTabs
  rw [expandTabsFrom_spaces]
  rcases aligned with absent | multiple
  · rw [expandTabsFrom_of_not_mem absent, expandTabsFrom_of_not_mem absent]
  · have column : (0 + depth) % 8 = 0 % 8 := by omega
    rw [expandTabsFrom_congr column]

theorem map_expandTabs_indent {depth : Nat} {lines : List Line}
    (aligned : (∀ line ∈ lines, '\t' ∉ line) ∨ 8 ∣ depth) :
    (indent (spaces depth) lines).map expandTabs =
      indent (spaces depth) (lines.map expandTabs) := by
  unfold indent
  rw [List.map_map, List.map_map]
  apply List.map_congr_left
  intro line member
  exact expandTabs_spaces (aligned.imp_left fun absent => absent line member)

/-! ### Margins of nested lines -/

/-- Behind a first line, a margin does not matter even if all other lines are blank. -/
theorem strip_cons_dedent_indent {margin : List Char} (blank : isBlankText margin = true)
    (first : Line) (rest : List Line) :
    strip isBlankText (first :: dedent (indent margin rest)) =
      strip isBlankText (first :: dedent rest) := by
  cases kind : rest.all isBlankText with
  | true =>
      have deeper : (indent margin rest).all isBlankText = true := by
        rw [List.all_eq_true] at kind ⊢
        intro line member
        obtain ⟨inner, listed, rfl⟩ := mem_indent.mp member
        rw [isBlankText_indented blank, kind inner listed]
      rw [← List.singleton_append, ← List.singleton_append (l := dedent rest),
        Text.strip_append_right (all_blank_dedent deeper),
        Text.strip_append_right (all_blank_dedent kind)]
  | false =>
      obtain ⟨line, member, solid⟩ := List.all_eq_false.mp kind
      rw [Bool.not_eq_true] at solid
      rw [dedent_indent blank member solid]

theorem normalizeLines_nestLines {depth : Nat} {lines : List Line}
    (aligned : (∀ line ∈ lines.tail, '\t' ∉ line) ∨ 8 ∣ depth) :
    normalizeLines (nestLines depth lines) = normalizeLines lines := by
  cases lines with
  | nil => rfl
  | cons first rest =>
      rw [List.tail_cons] at aligned
      rw [nestLines, normalizeLines_cons, normalizeLines_cons, map_expandTabs_indent aligned,
        strip_cons_dedent_indent (isBlankText_spaces depth)]

theorem isBlankText_expandTabs {line : Line} (blank : isBlankText line = true) :
    isBlankText (expandTabs line) = true := by
  apply List.all_eq_true.mpr
  intro character member
  rcases mem_expandTabsFrom member with space | inside
  · rw [space]
    decide
  · exact List.all_eq_true.mp blank character inside

theorem normalizeLines_append_blank {blanks : List Line} (blank : blanks.all isBlankText = true)
    (lines : List Line) : normalizeLines (lines ++ blanks) = normalizeLines lines := by
  have expanded : (blanks.map expandTabs).all isBlankText = true := by
    rw [List.all_map, List.all_eq_true]
    intro line member
    exact isBlankText_expandTabs (List.all_eq_true.mp blank line member)
  cases lines with
  | nil =>
      cases blanks with
      | nil => rfl
      | cons first rest =>
          rw [List.map_cons, List.all_cons, Bool.and_eq_true] at expanded
          have opened : isBlankText (Text.trimStart (expandTabs first)) = true := by
            rw [Text.trimStart, Text.dropWhile_of_all expanded.1]
            rfl
          rw [List.nil_append, normalizeLines_cons, Text.strip_of_all]
          · rfl
          · rw [List.all_cons, opened, all_blank_dedent expanded.2]
            rfl
  | cons first rest =>
      have followed : Followed (rest.map expandTabs) (rest.map expandTabs ++ blanks.map expandTabs) :=
        ⟨_, expanded, rfl⟩
      obtain ⟨dropped, still, cut⟩ := followed.dedent
      rw [List.cons_append, normalizeLines_cons, normalizeLines_cons, List.map_append, cut,
        ← List.cons_append, Text.strip_append_right still]

/-! ### Lines of nested texts -/

theorem nest_newline (depth : Nat) (rest : List Char) :
    nest depth ('\n' :: rest) = '\n' :: (spaces depth ++ nest depth rest) := by
  unfold nest
  rw [List.flatMap_cons, if_pos rfl]
  rfl

theorem nest_cons {character : Char} (other : character ≠ '\n') (depth : Nat)
    (rest : List Char) : nest depth (character :: rest) = character :: nest depth rest := by
  unfold nest
  rw [List.flatMap_cons, if_neg other]
  rfl

theorem linesFrom_newline (known rest : List Char) :
    Text.linesFrom known ('\n' :: rest) = Text.finishLine known :: Text.linesFrom [] rest := by
  rw [Text.linesFrom, if_pos rfl]

theorem linesFrom_cons {character : Char} (other : character ≠ '\n') (known rest : List Char) :
    Text.linesFrom known (character :: rest) = Text.linesFrom (character :: known) rest := by
  rw [Text.linesFrom, if_neg other]

theorem finishLine_spaces (depth : Nat) (known : List Char) :
    Text.finishLine (known ++ (spaces depth).reverse) =
      spaces depth ++ Text.finishLine known := by
  cases known with
  | nil => exact (Text.finishLine_reverse (unbroken_spaces depth).2).trans (List.append_nil _).symm
  | cons character known =>
      by_cases carriage : character = '\r'
      · subst carriage
        exact (List.reverse_append).trans (congrArg (· ++ _) (List.reverse_reverse _))
      · have kept (line : List Char) :
            Text.finishLine (character :: line) = (character :: line).reverse := by
          rw [Text.finishLine_eq_reverse_iff, List.head?_cons]
          exact fun same => carriage (Option.some.inj same)
        rw [List.cons_append, kept, kept, ← List.cons_append, List.reverse_append,
          List.reverse_reverse]

/-- After the first newline every line has the spaces before it; spaces after the last newline are
a blank line more. -/
theorem linesFrom_nest_after (depth : Nat) (known text : List Char) :
    ∃ blanks : List Line, blanks.all isBlankText = true ∧
      Text.linesFrom (known ++ (spaces depth).reverse) (nest depth text) =
        indent (spaces depth) (Text.linesFrom known text) ++ blanks := by
  induction text generalizing known with
  | nil =>
      cases known with
      | nil =>
          refine ⟨Text.linesFrom (spaces depth).reverse [], ?_, rfl⟩
          rw [Text.isBlankText_linesFrom, Text.isBlankText_reverse, isBlankText_spaces]
          rfl
      | cons character known =>
          refine ⟨[], rfl, ?_⟩
          have line : (character :: known ++ (spaces depth).reverse).reverse =
              spaces depth ++ (character :: known).reverse := by
            rw [List.reverse_append, List.reverse_reverse]
          exact congrArg (fun line => [line]) line
  | cons character rest ih =>
      by_cases newline : character = '\n'
      · subst newline
        obtain ⟨blanks, blank, found⟩ := ih []
        refine ⟨blanks, blank, ?_⟩
        rw [nest_newline, linesFrom_newline, linesFrom_newline,
          Text.linesFrom_append (unbroken_spaces depth).1, List.append_nil, finishLine_spaces]
        rw [List.nil_append] at found
        rw [found]
        rfl
      · rw [nest_cons newline, linesFrom_cons newline, linesFrom_cons newline]
        exact ih (character :: known)

theorem linesFrom_nest (depth : Nat) (known text : List Char) :
    ∃ blanks : List Line, blanks.all isBlankText = true ∧
      Text.linesFrom known (nest depth text) =
        nestLines depth (Text.linesFrom known text) ++ blanks := by
  induction text generalizing known with
  | nil =>
      refine ⟨[], rfl, ?_⟩
      rw [List.append_nil]
      cases known with
      | nil => rfl
      | cons character known => rfl
  | cons character rest ih =>
      by_cases newline : character = '\n'
      · subst newline
        obtain ⟨blanks, blank, found⟩ := linesFrom_nest_after depth [] rest
        refine ⟨blanks, blank, ?_⟩
        rw [List.nil_append] at found
        rw [nest_newline, linesFrom_newline, linesFrom_newline,
          Text.linesFrom_append (unbroken_spaces depth).1, List.append_nil, found]
        rfl
      · rw [nest_cons newline, linesFrom_cons newline, linesFrom_cons newline]
        exact ih (character :: known)

/-- A literal reads the same at any depth, if no tab stands after its first line or the depth is a
multiple of the distance of tab stops.  The deeper text may have the spaces after every newline, or
only before lines that there are. -/
theorem normalize_nested (depth : Nat) {text nested : List Char}
    (aligned : (∀ line ∈ (Text.lines text).tail, '\t' ∉ line) ∨ 8 ∣ depth)
    (deeper : nested = nest depth text ∨
      Text.lines nested = nestLines depth (Text.lines text)) :
    normalize nested = normalize text := by
  unfold normalize
  rcases deeper with whole | lines
  · obtain ⟨blanks, blank, found⟩ := linesFrom_nest depth [] text
    have cut : Text.lines nested = nestLines depth (Text.lines text) ++ blanks := by
      rw [whole]
      exact found
    rw [cut, normalizeLines_append_blank blank, normalizeLines_nestLines aligned]
  · rw [lines, normalizeLines_nestLines aligned]

theorem normalize_nested_tabbed :
    normalize "\tA\tb\n        \tx\n        \n          \ty z\n        ".toList =
        normalize "\tA\tb\n\tx\n\n  \ty z\n".toList ∧
      normalize "\tA\tb\n     x\n   \n    y\n".toList = normalize "\tA\tb\n  x\n\n y\n".toList := by
  constructor
  · exact normalize_nested 8 (Or.inr (by decide)) (Or.inl (by decide))
  · exact normalize_nested 3 (Or.inl (by decide)) (Or.inr (by decide))

-- A tab swallows four spaces before it, so that the lines drift apart.
example : normalize (nest 4 "a\n\tb\n        c".toList) = "a\nb\n    c".toList ∧
    normalize "a\n\tb\n        c".toList = "a\nb\nc".toList := by decide

end DocHarvest.Docstring
