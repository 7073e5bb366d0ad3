import DocHarvest.Proofs.Docstring.SharedMargin
import DocHarvest.Proofs.Text.ByteOrder

/-!
Lines without the margin that they share.

Every line that is not blank loses the same number of characters, all of them blank, so that such
lines keep their distances and one of them comes to stand at the left edge.  Margins are counted in
characters and lines are cut in bytes; the cut always falls where a character begins.
-/

namespace DocHarvest.Docstring

open Text (Line isBlankText indentation bytes)

/-! ### Cuts in bytes -/

/-- The places where the characters of a line begin, counted in bytes. -/
def offsetsFrom (start : Nat) : Line → List Nat
  | [] => []
  | character :: rest => start :: offsetsFrom (start + character.utf8Size) rest

/-- The bytes of a line from the place of a character on; none if the line ends before it. -/
def bytesFrom (count : Nat) (line : Line) : List UInt8 :=
  match (offsetsFrom 0 line)[count]? with
  | some offset => (bytes (String.ofList line)).drop offset
  | none => []

theorem bytes_ofList (line : Line) :
    bytes (String.ofList line) = line.flatMap String.utf8EncodeChar := by
  rw [Text.bytes_eq, String.toList_ofList]

theorem getElem?_offsetsFrom (start count : Nat) (line : Line) :
    (offsetsFrom start line)[count]? =
      if count < line.length then
        some (start + ((line.take count).flatMap String.utf8EncodeChar).length)
      else none := by
  induction line generalizing start count with
  | nil => rfl
  | cons character rest ih =>
      cases count with
      | zero => rfl
      | succ count =>
          rw [offsetsFrom, List.getElem?_cons_succ, ih, List.take_succ_cons, List.flatMap_cons,
            List.length_append, String.length_utf8EncodeChar, List.length_cons, Nat.add_assoc]
          simp only [Nat.add_lt_add_iff_right]

/-- A line cut in bytes is the line without its first characters. -/
theorem bytesFrom_eq (count : Nat) (line : Line) :
    bytesFrom count line = bytes (String.ofList (line.drop count)) := by
  unfold bytesFrom
  rw [getElem?_offsetsFrom, bytes_ofList, bytes_ofList]
  by_cases within : count < line.length
  · have whole : line.flatMap String.utf8EncodeChar =
        (line.take count).flatMap String.utf8EncodeChar ++
          (line.drop count).flatMap String.utf8EncodeChar := by
      rw [← List.flatMap_append, List.take_append_drop]
    rw [if_pos within, Nat.zero_add, whole]
    exact List.drop_left
  · rw [if_neg within, List.drop_eq_nil_of_le (Nat.le_of_not_lt within)]
    rfl

/-! ### Dedented lines -/

/-- What is left of a line when lines lose a margin. -/
structure Cut (margin : Nat) (line shorter : Line) : Prop where
  solid : isBlankText line = false →
    ∃ blanks, isBlankText blanks = true ∧ blanks.length = margin ∧ line = blanks ++ shorter
  blank : isBlankText line = true → isBlankText shorter = true

variable {lines : List Line}

theorem cut_drop {line : Line} (member : line ∈ lines) :
    Cut (commonMargin lines) line (line.drop (commonMargin lines)) where
  solid := by
    intro solid
    have within := commonMargin_le member solid
    refine ⟨line.take (commonMargin lines), Text.take_indentation_blank line within, ?_,
      (List.take_append_drop _ line).symm⟩
    exact List.length_take_of_le (within.trans (Text.indentation_le_length line))
  blank := fun blank => Text.isBlankText_drop blank _

theorem Cut.indentation_eq {margin : Nat} {line shorter : Line} (cut : Cut margin line shorter)
    (solid : isBlankText line = false) : indentation line = margin + indentation shorter := by
  obtain ⟨blanks, blank, length, whole⟩ := cut.solid solid
  rw [whole, Text.indentation_blank_append blank, length]

theorem cut_of_mem_zip {pair : Line × Line} (paired : pair ∈ lines.zip (dedent lines)) :
    Cut (commonMargin lines) pair.1 pair.2 := by
  have pairs : lines.zip (dedent lines) =
      lines.map fun line => (line, line.drop (commonMargin lines)) := by
    have both := List.zip_map' (f := id) (g := List.drop (commonMargin lines)) (l := lines)
    rw [List.map_id] at both
    exact both
  rw [pairs] at paired
  obtain ⟨line, member, rfl⟩ := List.mem_map.mp paired
  exact cut_drop member

/-- Dedenting takes one margin from all lines.  Each line that is not blank loses so many
characters, which are blank, and blank lines stay blank; in bytes, a line is cut where one of its
characters begins, or has nothing left.  Some line that is not blank then stands at the left edge,
if there is one; the distances between such lines stay, and there is nothing left to take. -/
theorem dedent_takes_margin (lines : List Line) :
    ∃ margin : Nat,
      (dedent lines).length = lines.length ∧
      (∀ pair ∈ lines.zip (dedent lines), Cut margin pair.1 pair.2) ∧
      (dedent lines).map (fun line => bytes (String.ofList line)) = lines.map (bytesFrom margin) ∧
      ((∃ line ∈ lines, isBlankText line = false) →
        ∃ line ∈ dedent lines, isBlankText line = false ∧ indentation line = 0) ∧
      (∀ first ∈ lines.zip (dedent lines), ∀ second ∈ lines.zip (dedent lines),
        isBlankText first.1 = false → isBlankText second.1 = false →
          (indentation first.2 : Int) - indentation second.2 =
            indentation first.1 - indentation second.1) ∧
      dedent (dedent lines) = dedent lines := by
  refine ⟨commonMargin lines, List.length_map _, fun pair => cut_of_mem_zip, ?bytes,
    exists_flush_dedent, ?distances, dedent_dedent lines⟩
  case bytes =>
    unfold dedent
    rw [List.map_map]
    refine List.map_congr_left ?_
    intro line _member
    exact (bytesFrom_eq _ line).symm
  case distances =>
    intro first firstPaired second secondPaired firstSolid secondSolid
    have firstFallen := (cut_of_mem_zip firstPaired).indentation_eq firstSolid
    have secondFallen := (cut_of_mem_zip secondPaired).indentation_eq secondSolid
    omega

/-- Two ideographic spaces of three bytes each, a line shorter than the margin, and a deeper line. -/
def uneven : List Line :=
  ["\u3000\u3000b".toList, " ".toList, "\t  c".toList]

theorem dedent_takes_margin_uneven :
    dedent uneven = ["b".toList, [], " c".toList] ∧
      (∃ line ∈ uneven, isBlankText line = false) ∧
      (∃ line ∈ dedent uneven, isBlankText line = false ∧ indentation line = 0) ∧
      (indentation "b".toList : Int) - indentation " c".toList =
        indentation "\u3000\u3000b".toList - indentation "\t  c".toList := by
  have solid : ∃ line ∈ uneven, isBlankText line = false :=
    ⟨"\t  c".toList, by decide, by decide⟩
  obtain ⟨_margin, _length, _cut, _bytes, edge, distances, _again⟩ := dedent_takes_margin uneven
  refine ⟨by decide, solid, edge solid, ?_⟩
  exact distances ("\u3000\u3000b".toList, "b".toList) (by decide)
    ("\t  c".toList, " c".toList) (by decide) (by decide) (by decide)

end DocHarvest.Docstring
