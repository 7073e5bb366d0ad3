import Mathlib.Data.List.Forall2
import DocHarvest.Proofs.Text.LineBreaks

/-!
What a text loses when it is cut into lines.

Cutting loses the carriage return before a newline and the newline at the very end, so that lines
joined again are a sublist of the text.  If they are all of it, the first and the last line are what
stands before the first newline and after the last.
-/

namespace DocHarvest.Text

/-- The text before the first newline; all of it if there is none. -/
def firstPiece (text : List Char) : Line :=
  text.takeWhile (· != '\n')

/-- The text after the last newline; all of it if there is none. -/
def lastPiece (text : List Char) : Line :=
  (firstPiece text.reverse).reverse

/-! ### Pieces of joined lines -/

theorem firstPiece_of_single {line : Line} (single : '\n' ∉ line) : firstPiece line = line := by
  unfold firstPiece
  rw [List.takeWhile_eq_self_iff]
  intro character member
  rw [bne_iff_ne]
  rintro rfl
  exact single member

theorem firstPiece_append {front : Line} (single : '\n' ∉ front) (back : List Char) :
    firstPiece (front ++ '\n' :: back) = front := by
  have front_whole := firstPiece_of_single single
  unfold firstPiece at front_whole ⊢
  rw [List.takeWhile_append_of_pos (List.takeWhile_eq_self_iff.mp front_whole),
    List.takeWhile_cons_of_neg (by decide), List.append_nil]

theorem firstPiece_unlines {line : Line} (single : '\n' ∉ line) (rest : List Line) :
    firstPiece (unlines (line :: rest)) = line := by
  cases rest with
  | nil => rw [unlines_singleton, firstPiece_of_single single]
  | cons second rest => rw [unlines_cons_cons, firstPiece_append single]

theorem lastPiece_unlines {line : Line} (single : '\n' ∉ line) (front : List Line) :
    lastPiece (unlines (front ++ [line])) = line := by
  have backwards : '\n' ∉ line.reverse := fun member => single (List.mem_reverse.mp member)
  unfold lastPiece
  by_cases none : front = []
  · rw [none, List.nil_append, unlines_singleton, firstPiece_of_single backwards,
      List.reverse_reverse]
  · rw [unlines_append none (List.cons_ne_nil _ _), unlines_singleton, List.reverse_append,
      List.reverse_cons, List.append_assoc, List.singleton_append, firstPiece_append backwards,
      List.reverse_reverse]

/-! ### Carriage returns before newlines -/

theorem infix_append_newline {front : Line} (single : '\n' ∉ front) (back : List Char) :
    ['\r', '\n'] <:+: front ++ '\n' :: back ↔
      front.getLast? = some '\r' ∨ ['\r', '\n'] <:+: back := by
  induction front with
  | nil => simp [List.infix_cons_iff]
  | cons character front ih =>
      rw [List.mem_cons, not_or] at single
      rw [List.cons_append, List.infix_cons_iff, ih single.2]
      cases front with
      | nil => simp [eq_comm]
      | cons next front =>
          have other : '\n' ≠ next := fun same => single.2 (same ▸ List.mem_cons_self)
          simp [other]

theorem not_infix_of_single {line : Line} (single : '\n' ∉ line) : ¬ ['\r', '\n'] <:+: line :=
  fun inside => single (inside.subset (List.mem_cons_of_mem _ List.mem_cons_self))

theorem finishLine_eq_reverse_iff (line : List Char) :
    finishLine line = line.reverse ↔ line.head? ≠ some '\r' := by
  unfold finishLine
  split
  · next rest =>
      constructor
      · intro same
        have lengths := congrArg List.length same
        rw [List.length_reverse, List.length_reverse, List.length_cons] at lengths
        omega
      · intro other
        exact absurd rfl other
  · next other =>
      constructor
      · intro _same first
        obtain ⟨rest, rfl⟩ := List.head?_eq_some_iff.mp first
        exact other rest rfl
      · intro _other
        rfl

/-- Joined lines are found again if no line ends with a carriage return before a newline and the
last line is not empty. -/
theorem lines_unlines_of_ended {source : List Line} (single : ∀ line ∈ source, '\n' ∉ line)
    (noReturn : ¬ ['\r', '\n'] <:+: unlines source) (ended : ∀ line ∈ source.getLast?, line ≠ []) :
    lines (unlines source) = source := by
  induction source with
  | nil => rfl
  | cons line rest ih =>
      obtain ⟨here, later⟩ := List.forall_mem_cons.mp single
      cases rest with
      | nil =>
          have nonempty := ended line rfl
          rw [unlines_singleton, lines_of_single here, if_neg (by simpa using nonempty)]
      | cons second rest =>
          rw [unlines_cons_cons, infix_append_newline here, not_or] at noReturn
          have finished : finishLine line.reverse = line := by
            rw [(finishLine_eq_reverse_iff _).mpr, List.reverse_reverse]
            rw [List.head?_reverse]
            exact noReturn.1
          have found := ih later noReturn.2 ended
          unfold lines at found ⊢
          rw [unlines_cons_cons, linesFrom_append here, List.append_nil, linesFrom, if_pos rfl,
            finished, found]

/-! ### Nothing is added -/

theorem unlines_cons_sublist {line front back : List Char} {rest : List Line}
    (first : line.Sublist front) (later : (unlines rest).Sublist back) :
    (unlines (line :: rest)).Sublist (front ++ '\n' :: back) := by
  cases rest with
  | nil =>
      rw [unlines_singleton]
      exact List.sublist_append_of_sublist_left first
  | cons second rest =>
      rw [unlines_cons_cons]
      exact first.append (later.cons_cons '\n')

/-- Fewer and shorter lines make a sublist of the text. -/
theorem unlines_sublist {short long : List Line}
    (within : List.SublistForall₂ List.Sublist short long) :
    (unlines short).Sublist (unlines long) := by
  induction within with
  | nil => exact List.nil_sublist _
  | @cons line whole short long first later ih =>
      cases long with
      | nil =>
          cases later
          rw [unlines_singleton, unlines_singleton]
          exact first
      | cons second long =>
          rw [unlines_cons_cons]
          exact unlines_cons_sublist first ih
  | @cons_right line short long later ih =>
      cases long with
      | nil => exact ih.trans (List.nil_sublist _)
      | cons second long =>
          rw [unlines_cons_cons]
          exact List.sublist_append_of_sublist_right (ih.cons '\n')

theorem finishLine_sublist (line : List Char) : (finishLine line).Sublist line.reverse := by
  unfold finishLine
  split
  · next rest =>
      rw [List.reverse_cons]
      exact List.sublist_append_left _ _
  · exact List.Sublist.refl _

theorem unlines_linesFrom_sublist (known text : List Char) :
    (unlines (linesFrom known text)).Sublist (known.reverse ++ text) := by
  induction text generalizing known with
  | nil =>
      unfold linesFrom
      split
      · exact List.nil_sublist _
      · rw [unlines_singleton, List.append_nil]
  | cons character rest ih =>
      unfold linesFrom
      split
      · next newline =>
          subst newline
          exact unlines_cons_sublist (finishLine_sublist known) (ih [])
      · have later := ih (character :: known)
        rw [List.reverse_cons, List.append_assoc, List.singleton_append] at later
        exact later

theorem unlines_lines_sublist (text : List Char) : (unlines (lines text)).Sublist text :=
  unlines_linesFrom_sublist [] text

/-! ### Texts that lose nothing -/

theorem not_infix_of_unlines_linesFrom {known text : List Char} (single : '\n' ∉ known)
    (whole : unlines (linesFrom known text) = known.reverse ++ text) :
    ¬ ['\r', '\n'] <:+: known.reverse ++ text := by
  have backwards : '\n' ∉ known.reverse := fun member => single (List.mem_reverse.mp member)
  induction text generalizing known with
  | nil =>
      rw [List.append_nil]
      exact not_infix_of_single backwards
  | cons character rest ih =>
      unfold linesFrom at whole
      split at whole
      · next newline =>
          subst newline
          have finished : '\n' ∉ finishLine known := fun member =>
            single (mem_of_mem_finishLine member)
          have kept : finishLine known = known.reverse := by
            have first := congrArg firstPiece whole
            rw [firstPiece_unlines finished, firstPiece_append backwards] at first
            exact first
          have noReturn : known.reverse.getLast? ≠ some '\r' := by
            rw [List.getLast?_reverse]
            exact (finishLine_eq_reverse_iff known).mp kept
          rw [kept] at whole
          cases found : linesFrom [] rest with
          | nil =>
              rw [found, unlines_singleton] at whole
              exact absurd whole (by simp)
          | cons second later =>
              rw [found, unlines_cons_cons, ← found, List.append_cancel_left_eq,
                List.cons.injEq] at whole
              have later : ¬ ['\r', '\n'] <:+: rest :=
                ih List.not_mem_nil whole.2 List.not_mem_nil
              rw [infix_append_newline backwards, not_or]
              exact ⟨noReturn, later⟩
      · next other =>
          have front : '\n' ∉ character :: known := by
            rw [List.mem_cons, not_or]
            exact ⟨fun same => other same.symm, single⟩
          have spelled : (character :: known).reverse ++ rest =
              known.reverse ++ character :: rest := by
            rw [List.reverse_cons, List.append_assoc, List.singleton_append]
          rw [← spelled] at whole ⊢
          exact ih front whole fun member => front (List.mem_reverse.mp member)

theorem not_infix_of_unlines_lines {text : List Char} (whole : unlines (lines text) = text) :
    ¬ ['\r', '\n'] <:+: text :=
  not_infix_of_unlines_linesFrom List.not_mem_nil whole

end DocHarvest.Text
