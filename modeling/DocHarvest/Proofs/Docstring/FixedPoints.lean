import Mathlib.Logic.Function.Iterate
import DocHarvest.Proofs.Docstring.NormalForm
import DocHarvest.Proofs.Text.LineEnds

/-!
Texts that cleaning leaves as they are.

Cleaning only takes characters away, so that a text which it changes gets shorter and repeated
cleaning comes to an end.  It leaves joined lines alone if neither the first nor the last of them is
blank and they share no indentation.  The lines of a normalized literal are such lines; a text that
has been cleaned once is made of such lines unless a blank line or a carriage return is left.
-/

namespace DocHarvest.Docstring

open Text (Line isBlankText Unbroken strip firstPiece lastPiece)

/-! ### Settled lines -/

/-- Lines without shared indentation, of which neither the first nor the last is blank. -/
structure Settled (lines : List Line) : Prop where
  first : ∀ line ∈ lines.head?, isBlankText line = false
  last : ∀ line ∈ lines.getLast?, isBlankText line = false
  margin : commonMargin lines = 0

theorem dropBlankFirst_of_solid {lines : List Line}
    (solid : ∀ line ∈ lines.head?, isBlankText line = false) : dropBlankFirst lines = lines := by
  cases lines with
  | nil => rfl
  | cons first rest => rw [dropBlankFirst, solid first rfl, if_neg Bool.false_ne_true]

theorem dropBlankLast_of_solid {lines : List Line}
    (solid : ∀ line ∈ lines.getLast?, isBlankText line = false) : dropBlankLast lines = lines := by
  rw [← List.head?_reverse] at solid
  unfold dropBlankLast
  rw [dropBlankFirst_of_solid solid, List.reverse_reverse]

theorem Settled.clean_unlines {lines : List Line} (settled : Settled lines)
    (free : NewlineFree lines) (noReturn : ¬ ['\r', '\n'] <:+: Text.unlines lines) :
    clean (Text.unlines lines) = Text.unlines lines := by
  have ended : ∀ line ∈ lines.getLast?, line ≠ [] := by
    rintro line found rfl
    cases settled.last [] found
  unfold clean cleanLines
  rw [Text.lines_unlines_of_ended free noReturn ended, dropBlankFirst_of_solid settled.first,
    dropBlankLast_of_solid settled.last, dedent, settled.margin]
  exact congrArg Text.unlines (List.map_id lines)

/-! ### Normalized literals -/

theorem normalizeLines_cons (first : Line) (rest : List Line) :
    normalizeLines (first :: rest) = strip isBlankText
      (Text.trimStart (expandTabs first) :: dedent (rest.map expandTabs)) := rfl

theorem indentation_trimStart (line : Line) : Text.indentation (Text.trimStart line) = 0 := by
  have first := Text.first_trimStart line
  cases kept : Text.trimStart line with
  | nil => rfl
  | cons character rest =>
      rw [kept] at first
      have solid := first character rfl
      unfold Text.indentation
      rw [List.takeWhile_cons, solid, if_neg Bool.false_ne_true, List.length_nil]

/-- A first line without indentation, blank or not, leaves dedented lines without a margin. -/
theorem commonMargin_trimStart_cons (line : Line) (rest : List Line) :
    commonMargin (Text.trimStart line :: dedent rest) = 0 := by
  cases kind : isBlankText (Text.trimStart line) with
  | true =>
      have blank : [Text.trimStart line].all isBlankText = true := by
        rw [List.all_cons, kind]
        rfl
      rw [← List.singleton_append, commonMargin_blank_append blank, commonMargin_dedent]
  | false =>
      have least : commonMargin (Text.trimStart line :: dedent rest) ≤
          Text.indentation (Text.trimStart line) := commonMargin_le List.mem_cons_self kind
      rw [indentation_trimStart] at least
      omega

theorem settled_normalizeLines (lines : List Line) : Settled (normalizeLines lines) where
  first := Text.head?_strip isBlankText _
  last := Text.getLast?_strip isBlankText _
  margin := by
    cases lines with
    | nil => rfl
    | cons first rest =>
        rw [normalizeLines_cons, commonMargin_strip]
        exact commonMargin_trimStart_cons _ _

theorem mem_expandTabsFrom {column : Nat} {line : Line} {character : Char}
    (member : character ∈ expandTabsFrom column line) : character = ' ' ∨ character ∈ line := by
  induction line generalizing column with
  | nil => cases member
  | cons next rest ih =>
      unfold expandTabsFrom at member
      split at member
      · rcases List.mem_append.mp member with padding | later
        · exact Or.inl (List.eq_of_mem_replicate padding)
        · exact (ih later).imp_right (List.mem_cons_of_mem _)
      · rcases List.mem_cons.mp member with rfl | later
        · exact Or.inr List.mem_cons_self
        · exact (ih later).imp_right (List.mem_cons_of_mem _)

theorem not_mem_expandTabs {line : Line} {character : Char} (visible : character ≠ ' ')
    (absent : character ∉ line) : character ∉ expandTabs line := by
  intro member
  rcases mem_expandTabsFrom member with space | inside
  · exact visible space
  · exact absent inside

theorem unbroken_expandTabs {line : Line} (unbroken : Unbroken line) :
    Unbroken (expandTabs line) :=
  ⟨not_mem_expandTabs (by decide) unbroken.1, not_mem_expandTabs (by decide) unbroken.2⟩

theorem unbroken_normalizeLines {lines : List Line} (unbroken : ∀ line ∈ lines, Unbroken line) :
    ∀ line ∈ normalizeLines lines, Unbroken line := by
  cases lines with
  | nil => exact fun line member => absurd member List.not_mem_nil
  | cons first rest =>
      obtain ⟨here, later⟩ := List.forall_mem_cons.mp unbroken
      intro line member
      rw [normalizeLines_cons] at member
      rcases List.mem_cons.mp ((Text.strip_sublist _ _).subset member) with rfl | dedented
      · have opened := unbroken_expandTabs here
        exact ⟨fun broken => opened.1 ((List.dropWhile_sublist _).subset broken),
          fun broken => opened.2 ((List.dropWhile_sublist _).subset broken)⟩
      · obtain ⟨expanded, listed, rfl⟩ := List.mem_map.mp dedented
        obtain ⟨inner, present, rfl⟩ := List.mem_map.mp listed
        exact (unbroken_expandTabs (later inner present)).drop _

theorem not_infix_unlines {lines : List Line} (unbroken : ∀ line ∈ lines, Unbroken line) :
    ¬ ['\r', '\n'] <:+: Text.unlines lines := by
  intro inside
  rcases Text.mem_join (inside.subset List.mem_cons_self) with separator | ⟨line, listed, member⟩
  · cases List.mem_singleton.mp separator
  · exact (unbroken line listed).2 member

/-- Cleaning leaves a normalized literal as it is. -/
theorem clean_normalize {text : List Char} (plain : '\r' ∉ text) :
    clean (normalize text) = normalize text := by
  have unbroken : ∀ line ∈ normalizeLines (Text.lines text), Unbroken line :=
    unbroken_normalizeLines fun _line => Text.unbroken_of_mem_lines plain
  exact (settled_normalizeLines (Text.lines text)).clean_unlines
    (fun line listed => (unbroken line listed).1) (not_infix_unlines unbroken)

theorem clean_normalize_tabbed :
    normalize " \n\t\u3000Scale.\n\n\t  By two.\n ".toList = "Scale.\n\n By two.".toList ∧
      clean (normalize " \n\t\u3000Scale.\n\n\t  By two.\n ".toList) =
        normalize " \n\t\u3000Scale.\n\n\t  By two.\n ".toList :=
  ⟨by decide, clean_normalize (by decide)⟩

/-! ### Cleaning takes away -/

theorem dropBlankFirst_sublist (lines : List Line) : (dropBlankFirst lines).Sublist lines := by
  obtain ⟨blanks, _blank, frame⟩ := dropBlankFirst_frame lines
  have kept := List.sublist_append_right blanks (dropBlankFirst lines)
  rw [← frame] at kept
  exact kept

theorem dropBlankLast_sublist (lines : List Line) : (dropBlankLast lines).Sublist lines := by
  obtain ⟨blanks, _blank, frame⟩ := dropBlankLast_frame lines
  have kept := List.sublist_append_left (dropBlankLast lines) blanks
  rw [← frame] at kept
  exact kept

theorem unlines_sublist_of_sublist {short long : List Line} (within : short.Sublist long) :
    (Text.unlines short).Sublist (Text.unlines long) :=
  Text.unlines_sublist (List.sublistForall₂_iff.mpr
    ⟨short, List.forall₂_same.mpr fun line _member => List.Sublist.refl line, within⟩)

theorem unlines_dedent_sublist (lines : List Line) :
    (Text.unlines (dedent lines)).Sublist (Text.unlines lines) := by
  have shortened : List.Forall₂ List.Sublist (dedent lines) lines :=
    List.forall₂_map_left_iff.mpr
      (List.forall₂_same.mpr fun line _member => List.drop_sublist _ line)
  exact Text.unlines_sublist
    (List.sublistForall₂_iff.mpr ⟨lines, shortened, List.Sublist.refl lines⟩)

/-- The texts that cleaning goes through, each a sublist of the one before. -/
theorem clean_steps (text : List Char) :
    (clean text).Sublist
        (Text.unlines (dropBlankLast (dropBlankFirst (Text.lines text)))) ∧
      (Text.unlines (dropBlankLast (dropBlankFirst (Text.lines text)))).Sublist
        (Text.unlines (dropBlankFirst (Text.lines text))) ∧
      (Text.unlines (dropBlankFirst (Text.lines text))).Sublist
        (Text.unlines (Text.lines text)) ∧
      (Text.unlines (Text.lines text)).Sublist text :=
  ⟨unlines_dedent_sublist _, unlines_sublist_of_sublist (dropBlankLast_sublist _),
    unlines_sublist_of_sublist (dropBlankFirst_sublist _), Text.unlines_lines_sublist text⟩

theorem clean_sublist (text : List Char) : (clean text).Sublist text := by
  obtain ⟨dedented, last, first, joined⟩ := clean_steps text
  exact ((dedented.trans last).trans first).trans joined

theorem clean_shorter {text : List Char} (changed : clean text ≠ text) :
    (clean text).length < text.length := by
  have smaller := clean_sublist text
  have unequal : (clean text).length ≠ text.length :=
    fun same => changed (smaller.eq_of_length same)
  exact Nat.lt_of_le_of_ne smaller.length_le unequal

/-- Each round that changes a text takes a character away, so there are no more such rounds than
characters. -/
theorem exists_clean_settles (text : List Char) :
    ∃ rounds ≤ text.length, clean (clean^[rounds] text) = clean^[rounds] text := by
  by_cases fixed : clean text = text
  · exact ⟨0, Nat.zero_le _, fixed⟩
  · have shorter := clean_shorter fixed
    obtain ⟨rounds, bound, settled⟩ := exists_clean_settles (clean text)
    refine ⟨rounds + 1, by omega, ?_⟩
    rw [Function.iterate_succ_apply]
    exact settled
termination_by text.length

/-! ### Fixed points -/

theorem newlineFree_cleanLines (text : List Char) : NewlineFree (cleanLines text) := by
  obtain ⟨before, kept, after, _first, _last, frame, cleaned⟩ := cleanLines_frame text
  rw [cleaned]
  refine NewlineFree.dedent fun line member => newlineFree_lines text line ?_
  rw [frame]
  exact List.mem_append_left _ (List.mem_append_right _ member)

theorem commonMargin_cleanLines (text : List Char) : commonMargin (cleanLines text) = 0 :=
  commonMargin_dedent _

section Ends

variable {lines : List Line} {line : Line}

theorem firstPiece_of_head? (free : NewlineFree lines) (first : line ∈ lines.head?) :
    firstPiece (Text.unlines lines) = line := by
  obtain ⟨rest, rfl⟩ := List.head?_eq_some_iff.mp first
  exact Text.firstPiece_unlines (free line List.mem_cons_self) rest

theorem lastPiece_of_getLast? (free : NewlineFree lines) (last : line ∈ lines.getLast?) :
    lastPiece (Text.unlines lines) = line := by
  obtain ⟨front, rfl⟩ := List.getLast?_eq_some_iff.mp last
  exact Text.lastPiece_unlines (free line (List.mem_append_right _ List.mem_cons_self)) front

/-- A blank line cannot be dropped at the beginning of a text without a trace. -/
theorem head?_solid_of_unlines (same : Text.unlines (dropBlankFirst lines) = Text.unlines lines)
    (nonempty : Text.unlines lines ≠ []) : ∀ line ∈ lines.head?, isBlankText line = false := by
  intro line first
  obtain ⟨rest, rfl⟩ := List.head?_eq_some_iff.mp first
  rw [← Bool.not_eq_true]
  intro blank
  rw [dropBlankFirst, if_pos blank] at same
  cases rest with
  | nil => exact nonempty same.symm
  | cons second rest =>
      have lengths := congrArg List.length same
      rw [Text.unlines_cons_cons, List.length_append, List.length_cons] at lengths
      omega

theorem getLast?_solid_of_unlines (same : Text.unlines (dropBlankLast lines) = Text.unlines lines)
    (nonempty : Text.unlines lines ≠ []) : ∀ line ∈ lines.getLast?, isBlankText line = false := by
  intro line last
  obtain ⟨front, rfl⟩ := List.getLast?_eq_some_iff.mp last
  rw [← Bool.not_eq_true]
  intro blank
  have dropped : dropBlankLast (front ++ [line]) = front := by
    rw [dropBlankLast, List.reverse_append, List.reverse_singleton, List.singleton_append,
      dropBlankFirst, if_pos blank, List.reverse_reverse]
  rw [dropped] at same
  by_cases none : front = []
  · rw [none] at same nonempty
    exact nonempty same.symm
  · have lengths := congrArg List.length same
    rw [Text.unlines_append none (List.cons_ne_nil _ _), List.length_append,
      List.length_cons] at lengths
    omega

end Ends

/-- A text whose first or last line is blank, or that holds a carriage return before a newline, is
changed by cleaning. -/
theorem ends_of_clean_eq {text : List Char} (fixed : clean text = text) (nonempty : text ≠ []) :
    isBlankText (firstPiece text) = false ∧ isBlankText (lastPiece text) = false ∧
      ¬ ['\r', '\n'] <:+: text := by
  obtain ⟨dedented, last, first, joined⟩ := clean_steps text
  rw [fixed] at dedented
  -- all texts on the way are the same, since the last one is the first
  have whole : Text.unlines (Text.lines text) = text :=
    joined.antisymm ((dedented.trans last).trans first)
  have firstKept : Text.unlines (dropBlankFirst (Text.lines text)) =
      Text.unlines (Text.lines text) :=
    first.antisymm (joined.trans (dedented.trans last))
  have text_ne : Text.unlines (Text.lines text) ≠ [] := by
    rw [whole]
    exact nonempty
  have firstSolid := head?_solid_of_unlines firstKept text_ne
  have lastKept : Text.unlines (dropBlankLast (Text.lines text)) =
      Text.unlines (Text.lines text) := by
    rw [dropBlankFirst_of_solid firstSolid] at dedented last
    exact last.antisymm (joined.trans dedented)
  have lastSolid := getLast?_solid_of_unlines lastKept text_ne
  have free := newlineFree_lines text
  have lines_ne : Text.lines text ≠ [] := by
    intro nothing
    rw [nothing] at text_ne
    exact text_ne rfl
  refine ⟨?_, ?_, Text.not_infix_of_unlines_lines whole⟩
  · have found := List.head?_eq_some_head lines_ne
    rw [← whole, firstPiece_of_head? free found]
    exact firstSolid _ found
  · have found := List.getLast?_eq_some_getLast lines_ne
    rw [← whole, lastPiece_of_getLast? free found]
    exact lastSolid _ found

theorem clean_clean_of_ends {text : List Char}
    (first : isBlankText (firstPiece (clean text)) = false)
    (last : isBlankText (lastPiece (clean text)) = false)
    (noReturn : ¬ ['\r', '\n'] <:+: clean text) : clean (clean text) = clean text := by
  have free := newlineFree_cleanLines text
  have settled : Settled (cleanLines text) :=
    { first := by
        intro line found
        rw [← firstPiece_of_head? free found]
        exact first
      last := by
        intro line found
        rw [← lastPiece_of_getLast? free found]
        exact last
      margin := commonMargin_cleanLines text }
  exact settled.clean_unlines free noReturn

/-- Cleaning a cleaned text again leaves it as it is just if it is empty, or neither what stands
before its first newline nor what stands after its last is blank and no carriage return stands
before a newline.  Otherwise it gets shorter, and after some rounds nothing changes any more. -/
theorem clean_fixed_points (text : List Char) :
    (clean (clean text) = clean text ↔
      clean text = [] ∨
        (isBlankText (firstPiece (clean text)) = false ∧
          isBlankText (lastPiece (clean text)) = false ∧ ¬ ['\r', '\n'] <:+: clean text)) ∧
    (clean (clean text) ≠ clean text → (clean (clean text)).length < (clean text).length) ∧
    ∃ rounds ≤ text.length, clean (clean^[rounds] text) = clean^[rounds] text := by
  refine ⟨⟨?_, ?_⟩, clean_shorter, exists_clean_settles text⟩
  · intro fixed
    by_cases nothing : clean text = []
    · exact Or.inl nothing
    · exact Or.inr (ends_of_clean_eq fixed nothing)
  · rintro (nothing | ⟨first, last, noReturn⟩)
    · rw [nothing]
      rfl
    · exact clean_clean_of_ends first last noReturn

end DocHarvest.Docstring
