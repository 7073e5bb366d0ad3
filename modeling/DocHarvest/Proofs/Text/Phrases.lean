import DocHarvest.Proofs.Text.LineBreaks

/-!
Texts without blanks at their ends, and what cutting and joining makes of them.

A trimmed text is found again behind a margin and before trailing blanks, words are found again
among single spaces, and a text is what stands before and after the first place of a separator.
-/

namespace DocHarvest.Text

/-! ### Trimmed texts -/

/-- No blank character stands at either end of a text. -/
structure Trimmed (text : List Char) : Prop where
  first : ∀ character ∈ text.head?, isBlank character = false
  last : ∀ character ∈ text.getLast?, isBlank character = false

instance (text : List Char) : Decidable (Trimmed text) :=
  decidable_of_iff
    (text.head?.all (fun character => !isBlank character) = true ∧
      text.getLast?.all (fun character => !isBlank character) = true) <| by
    simp only [Option.all_eq_true, Bool.not_eq_true']
    exact ⟨fun ends => ⟨ends.1, ends.2⟩, fun trimmed => ⟨trimmed.first, trimmed.last⟩⟩

theorem trimmed_nil : Trimmed [] := by decide

theorem Trimmed.reverse {text : List Char} (trimmed : Trimmed text) : Trimmed text.reverse where
  first := by
    rw [List.head?_reverse]
    exact trimmed.last
  last := by
    rw [List.getLast?_reverse]
    exact trimmed.first

theorem trimStart_of_first {text : List Char}
    (first : ∀ character ∈ text.head?, isBlank character = false) : trimStart text = text := by
  cases text with
  | nil => rfl
  | cons character rest =>
      unfold trimStart
      rw [List.dropWhile_cons, first character rfl, if_neg Bool.false_ne_true]

theorem trimEnd_of_last {text : List Char}
    (last : ∀ character ∈ text.getLast?, isBlank character = false) : trimEnd text = text := by
  rw [← List.head?_reverse] at last
  have kept := trimStart_of_first last
  unfold trimStart at kept
  unfold trimEnd
  rw [kept, List.reverse_reverse]

theorem Trimmed.trim_eq {text : List Char} (trimmed : Trimmed text) : trim text = text := by
  unfold trim
  rw [trimStart_of_first trimmed.first, trimEnd_of_last trimmed.last]

theorem first_trimStart (text : List Char) :
    ∀ character ∈ (trimStart text).head?, isBlank character = false :=
  head?_dropWhile isBlank text

theorem trimmed_trim (text : List Char) : Trimmed (trim text) where
  first := head?_strip isBlank text
  last := getLast?_strip isBlank text

theorem trim_sublist (text : List Char) : (trim text).Sublist text :=
  strip_sublist isBlank text

theorem Trimmed.blank_iff {text : List Char} (trimmed : Trimmed text) :
    isBlankText text = true ↔ text = [] := by
  constructor
  · intro blank
    rw [← trimmed.trim_eq, trim_of_blank blank]
  · rintro rfl
    rfl

theorem Trimmed.solid {text : List Char} (trimmed : Trimmed text) (nonempty : text ≠ []) :
    isBlankText text = false := by
  rw [← Bool.not_eq_true, trimmed.blank_iff]
  exact nonempty

theorem isBlankText_of_trim_eq_nil {text : List Char} (nothing : trim text = []) :
    isBlankText text = true := by
  obtain ⟨front, back, before, after, frame⟩ := strip_frame isBlank text
  have whole : text = front ++ back := by
    rw [frame, show strip isBlank text = [] from nothing, List.append_nil]
  rw [whole, isBlankText_append]
  exact Bool.and_eq_true_iff.mpr ⟨before, after⟩

theorem Trimmed.indentation_eq {text : List Char} (trimmed : Trimmed text) :
    indentation text = 0 := by
  cases text with
  | nil => rfl
  | cons character rest =>
      unfold indentation
      rw [List.takeWhile_cons, trimmed.first character rfl, if_neg Bool.false_ne_true]
      rfl

theorem Trimmed.append {front back : List Char} (front_ne : front ≠ []) (back_ne : back ≠ [])
    (first : ∀ character ∈ front.head?, isBlank character = false)
    (last : ∀ character ∈ back.getLast?, isBlank character = false) : Trimmed (front ++ back) where
  first := by
    intro character found
    cases front with
    | nil => exact absurd rfl front_ne
    | cons start rest => exact first character found
  last := by
    intro character found
    rw [List.getLast?_append] at found
    cases ending : back.getLast? with
    | none => exact absurd (List.getLast?_eq_none_iff.mp ending) back_ne
    | some final =>
        rw [ending] at found
        rw [ending] at last
        exact last character found

/-- A text that begins with no blank keeps what stands before a solid character when it is
trimmed. -/
theorem trim_append_of_solid {front rest : List Char} (front_ne : front ≠ [])
    (first : ∀ character ∈ front.head?, isBlank character = false)
    (last : ∀ character ∈ front.getLast?, isBlank character = false) :
    trim (front ++ rest) = front ++ trimEnd rest := by
  have start : trimStart (front ++ rest) = front ++ rest := by
    refine trimStart_of_first ?_
    intro character found
    cases front with
    | nil => exact absurd rfl front_ne
    | cons start more => exact first character found
  unfold trim
  rw [start]
  unfold trimEnd
  rw [List.reverse_append, List.dropWhile_append]
  cases remains : (rest.reverse.dropWhile isBlank).isEmpty with
  | false =>
      rw [if_neg Bool.false_ne_true, List.reverse_append, List.reverse_reverse]
  | true =>
      have kept := trimEnd_of_last last
      unfold trimEnd at kept
      rw [if_pos rfl, List.isEmpty_iff.mp remains, kept, List.reverse_nil, List.append_nil]

theorem trim_trimEnd (text : List Char) : trim (trimEnd text) = trim text := by
  have frame : text = trimEnd text ++ (text.reverse.takeWhile isBlank).reverse := by
    unfold trimEnd
    rw [← List.reverse_append, List.takeWhile_append_dropWhile, List.reverse_reverse]
  have blank : isBlankText (text.reverse.takeWhile isBlank).reverse = true := by
    rw [isBlankText_reverse]
    exact List.all_takeWhile
  conv => rhs; rw [frame, trim_append_blank blank]

theorem Trimmed.trim_behind {margin text : List Char} (trimmed : Trimmed text)
    (blank : isBlankText margin = true) : trim (margin ++ text) = text := by
  rw [trim_blank_append blank, trimmed.trim_eq]

/-! ### Cut texts -/

theorem splitOnce_eq_some {separator text before after : List Char}
    (cut : splitOnce separator text = some (before, after)) :
    text = before ++ separator ++ after := by
  induction text generalizing before with
  | nil =>
      unfold splitOnce at cut
      split at cut
      · next nothing =>
          cases cut
          rw [List.isEmpty_iff.mp nothing]
          rfl
      · cases cut
  | cons character rest ih =>
      unfold splitOnce at cut
      split at cut
      · next found =>
          cases cut
          obtain ⟨later, whole⟩ := List.isPrefixOf_iff_prefix.mp found
          rw [← whole, List.drop_left]
          rfl
      · obtain ⟨⟨front, back⟩, inner, same⟩ := Option.map_eq_some_iff.mp cut
        cases same
        rw [ih inner]
        rfl

/-- A text is cut at a separator if a mark in the separator does not stand before. -/
theorem splitOnce_append (front back : List Char) {before : List Char} {mark : Char}
    (early : mark ∉ front) (absent : mark ∉ before) (after : List Char) :
    splitOnce (front ++ mark :: back) (before ++ (front ++ mark :: back) ++ after) =
      some (before, after) := by
  induction before with
  | nil =>
      have found : (front ++ mark :: back).isPrefixOf ((front ++ mark :: back) ++ after) = true :=
        List.isPrefixOf_iff_prefix.mpr (List.prefix_append _ _)
      have length : ((front ++ mark :: back) ++ after).drop (front ++ mark :: back).length = after :=
        List.drop_left
      cases text : (front ++ mark :: back) ++ after with
      | nil => simp at text
      | cons character rest =>
          rw [text] at found length
          rw [List.nil_append, text, splitOnce, if_pos found, length]
  | cons character rest ih =>
      rw [List.mem_cons, not_or] at absent
      have later : ¬ (front ++ mark :: back) <+:
          character :: (rest ++ (front ++ mark :: back) ++ after) := by
        rintro ⟨tail, whole⟩
        -- the mark would stand where still only `character :: rest ++ front` is
        have left : (front ++ mark :: back ++ tail)[front.length]? = some mark := by simp
        have split : character :: (rest ++ (front ++ mark :: back) ++ after) =
            (character :: (rest ++ front)) ++ (mark :: back ++ after) := by simp
        have within : front.length < (character :: (rest ++ front)).length := by
          rw [List.length_cons, List.length_append]
          omega
        rw [whole, split, List.getElem?_append_left within] at left
        have member := List.mem_of_getElem? left
        rw [List.mem_cons, List.mem_append] at member
        rcases member with here | inRest | inFront
        · exact absent.1 here
        · exact absent.2 inRest
        · exact early inFront
      have passed : ¬ (front ++ mark :: back).isPrefixOf
          (character :: (rest ++ (front ++ mark :: back) ++ after)) = true := by
        rw [List.isPrefixOf_iff_prefix]
        exact later
      rw [List.cons_append, List.cons_append, splitOnce, if_neg passed, ih absent.2]
      rfl

theorem splitOnce_mark {before : List Char} {mark : Char} (absent : mark ∉ before)
    (after : List Char) : splitOnce [mark] (before ++ mark :: after) = some (before, after) := by
  have cut := splitOnce_append [] [] List.not_mem_nil absent after
  rw [List.nil_append, List.append_assoc] at cut
  exact cut

theorem splitOnce_mark_eq_some {text before after : List Char} {mark : Char}
    (cut : splitOnce [mark] text = some (before, after)) :
    text = before ++ mark :: after ∧ mark ∉ before := by
  have whole := splitOnce_eq_some cut
  rw [List.append_assoc, List.singleton_append] at whole
  refine ⟨whole, ?_⟩
  intro member
  obtain ⟨front, back, same, absent⟩ := List.eq_append_cons_of_mem member
  rw [same, List.append_assoc, List.cons_append] at whole
  rw [whole, splitOnce_mark absent] at cut
  have earlier : front = before := congrArg Prod.fst (Option.some.inj cut)
  have lengths := congrArg List.length same
  rw [earlier, List.length_append, List.length_cons] at lengths
  omega

theorem splitOnce_eq_none {separator text : List Char} (absent : ¬ separator <:+: text) :
    splitOnce separator text = none := by
  induction text with
  | nil =>
      cases separator with
      | nil => exact absurd (List.nil_infix) absent
      | cons mark more => rfl
  | cons character rest ih =>
      have passed : ¬ separator.isPrefixOf (character :: rest) = true := by
        rw [List.isPrefixOf_iff_prefix]
        exact fun found => absent found.isInfix
      have inner := ih fun found => absent (found.trans (List.suffix_cons _ _).isInfix)
      rw [splitOnce, if_neg passed, inner]
      rfl

theorem splitOnce_mark_eq_none {text : List Char} {mark : Char} (absent : mark ∉ text) :
    splitOnce [mark] text = none :=
  splitOnce_eq_none fun found => absent (found.subset List.mem_cons_self)

theorem withoutLast_eq_some {character : Char} {text front : List Char} :
    withoutLast character text = some front ↔ text = front ++ [character] := by
  unfold withoutLast
  constructor
  · intro cut
    cases backwards : text.reverse with
    | nil =>
        rw [backwards] at cut
        cases cut
    | cons last before =>
        rw [backwards] at cut
        dsimp only at cut
        split at cut
        · next same =>
            cases cut
            rw [← List.reverse_inj, backwards, List.reverse_append, List.reverse_reverse, same]
            rfl
        · cases cut
  · rintro rfl
    rw [List.reverse_append]
    simp

theorem nonBlank_eq_some {text found : List Char} :
    nonBlank text = some found ↔ trim text = found ∧ found ≠ [] := by
  unfold nonBlank
  constructor
  · intro kept
    dsimp only at kept
    split at kept
    · cases kept
    · next nonempty =>
        cases kept
        exact ⟨rfl, fun nothing => nonempty (List.isEmpty_iff.mpr nothing)⟩
  · rintro ⟨rfl, nonempty⟩
    dsimp only
    rw [if_neg fun nothing => nonempty (List.isEmpty_iff.mp nothing)]

theorem Trimmed.nonBlank_eq {text : List Char} (trimmed : Trimmed text) (nonempty : text ≠ []) :
    nonBlank text = some text :=
  nonBlank_eq_some.mpr ⟨trimmed.trim_eq, nonempty⟩

theorem nonBlank_of_solid {text : List Char} (solid : isBlankText text = false) :
    nonBlank text = some (trim text) := by
  refine nonBlank_eq_some.mpr ⟨rfl, ?_⟩
  intro nothing
  rw [isBlankText_of_trim_eq_nil nothing] at solid
  cases solid

/-! ### Words -/

/-- A word: something, without a blank character. -/
structure Unspaced (text : List Char) : Prop where
  nonempty : text ≠ []
  solid : ∀ character ∈ text, isBlank character = false

instance (text : List Char) : Decidable (Unspaced text) :=
  decidable_of_iff (text ≠ [] ∧ text.all (fun character => !isBlank character) = true) <| by
    simp only [List.all_eq_true, Bool.not_eq_true']
    exact ⟨fun word => ⟨word.1, word.2⟩, fun word => ⟨word.nonempty, word.solid⟩⟩

theorem Unspaced.trimmed {text : List Char} (unspaced : Unspaced text) : Trimmed text where
  first := fun character found => unspaced.solid character (List.mem_of_mem_head? found)
  last := fun character found => unspaced.solid character (List.mem_of_mem_getLast? found)

theorem wordsFrom_append {word : List Char} (solid : ∀ character ∈ word, isBlank character = false)
    (known rest : List Char) :
    wordsFrom known (word ++ rest) = wordsFrom (word.reverse ++ known) rest := by
  induction word generalizing known with
  | nil => rfl
  | cons character word ih =>
      have here := solid character List.mem_cons_self
      rw [List.cons_append, wordsFrom, here, if_neg Bool.false_ne_true,
        ih fun other member => solid other (List.mem_cons_of_mem _ member), List.reverse_cons,
        List.append_assoc]
      rfl

theorem wordsFrom_of_known {known : List Char} (nonempty : known ≠ []) :
    wordsFrom known [] = [known.reverse] ∧
      ∀ rest, wordsFrom known (' ' :: rest) = known.reverse :: words rest := by
  have open_ : ¬ known.isEmpty = true := fun nothing => nonempty (List.isEmpty_iff.mp nothing)
  have space : isBlank ' ' = true := by decide
  constructor
  · rw [wordsFrom, if_neg open_]
  · intro rest
    rw [wordsFrom, space, if_pos rfl, if_neg open_]
    rfl

/-- Words among single spaces are found again. -/
theorem words_join {found : List (List Char)} (unspaced : ∀ word ∈ found, Unspaced word) :
    words (join [' '] found) = found := by
  induction found with
  | nil => rfl
  | cons word rest ih =>
      have here := unspaced word List.mem_cons_self
      have later := ih fun other member => unspaced other (List.mem_cons_of_mem _ member)
      have known : word.reverse ++ [] ≠ [] := by
        rw [List.append_nil, Ne, List.reverse_eq_nil_iff]
        exact here.nonempty
      unfold words
      cases rest with
      | nil =>
          have cut := wordsFrom_append here.solid [] []
          rw [List.append_nil, (wordsFrom_of_known known).1, List.append_nil,
            List.reverse_reverse] at cut
          rw [join, List.intercalate_singleton]
          exact cut
      | cons second more =>
          rw [join, List.intercalate_cons_cons, List.append_assoc, wordsFrom_append here.solid,
            List.singleton_append, (wordsFrom_of_known known).2, List.append_nil,
            List.reverse_reverse]
          exact congrArg (word :: ·) later

theorem unspaced_wordsFrom {known : List Char}
    (solid : ∀ character ∈ known, isBlank character = false) (text : List Char) :
    ∀ word ∈ wordsFrom known text, Unspaced word := by
  have finished {known : List Char} (some : ¬ known.isEmpty = true)
      (solid : ∀ character ∈ known, isBlank character = false) : Unspaced known.reverse := by
    rw [List.isEmpty_iff] at some
    refine ⟨fun nothing => some (List.reverse_eq_nil_iff.mp nothing), ?_⟩
    exact fun character member => solid character (List.mem_reverse.mp member)
  fun_induction wordsFrom known text with
  | case1 known => exact List.forall_mem_nil _
  | case2 known some => exact List.forall_mem_singleton.mpr (finished some solid)
  | case3 known character rest _blank _none ih => exact ih (List.forall_mem_nil _)
  | case4 known character rest _blank some ih =>
      exact List.forall_mem_cons.mpr ⟨finished some solid, ih (List.forall_mem_nil _)⟩
  | case5 known character rest other ih =>
      rw [Bool.not_eq_true] at other
      exact ih (List.forall_mem_cons.mpr ⟨other, solid⟩)

theorem unspaced_words (text : List Char) : ∀ word ∈ words text, Unspaced word :=
  unspaced_wordsFrom (List.forall_mem_nil _) text

/-! ### Joined pieces -/

theorem join_cons_cons (separator first second : List Char) (rest : List (List Char)) :
    join separator (first :: second :: rest) =
      first ++ separator ++ join separator (second :: rest) := by
  unfold join
  exact List.intercalate_cons_cons

theorem mem_join {separator : List Char} {pieces : List (List Char)} {character : Char}
    (member : character ∈ join separator pieces) :
    character ∈ separator ∨ ∃ piece ∈ pieces, character ∈ piece := by
  induction pieces with
  | nil => cases member
  | cons piece rest ih =>
      cases rest with
      | nil =>
          rw [join, List.intercalate_singleton] at member
          exact Or.inr ⟨piece, List.mem_cons_self, member⟩
      | cons second rest =>
          rw [join_cons_cons, List.mem_append, List.mem_append] at member
          rcases member with (here | between) | later
          · exact Or.inr ⟨piece, List.mem_cons_self, here⟩
          · exact Or.inl between
          · rcases ih later with between | ⟨other, listed, inside⟩
            · exact Or.inl between
            · exact Or.inr ⟨other, List.mem_cons_of_mem _ listed, inside⟩

theorem join_ne_nil {separator piece : List Char} (rest : List (List Char))
    (nonempty : piece ≠ []) : join separator (piece :: rest) ≠ [] := by
  cases rest with
  | nil =>
      rw [join, List.intercalate_singleton]
      exact nonempty
  | cons second rest =>
      rw [join_cons_cons, List.append_assoc]
      exact List.append_ne_nil_of_left_ne_nil nonempty _

theorem trimmed_join {separator : List Char} {pieces : List (List Char)}
    (each : ∀ piece ∈ pieces, Trimmed piece ∧ piece ≠ []) : Trimmed (join separator pieces) := by
  induction pieces with
  | nil => exact trimmed_nil
  | cons piece rest ih =>
      have here := each piece List.mem_cons_self
      cases rest with
      | nil =>
          rw [join, List.intercalate_singleton]
          exact here.1
      | cons second rest =>
          have later := ih fun other member => each other (List.mem_cons_of_mem _ member)
          have second_ne := (each second (List.mem_cons_of_mem _ List.mem_cons_self)).2
          rw [join_cons_cons, List.append_assoc]
          refine .append here.2 (List.append_ne_nil_of_right_ne_nil _ (join_ne_nil rest second_ne))
            here.1.first ?_
          rw [List.getLast?_append]
          intro character found
          cases ending : (join separator (second :: rest)).getLast? with
          | none => exact absurd (List.getLast?_eq_none_iff.mp ending) (join_ne_nil rest second_ne)
          | some final =>
              rw [ending] at found
              exact later.last character (ending.trans found)

/-- Texts that are not empty, with single spaces between them. -/
def flow (texts : List (List Char)) : List Char :=
  join [' '] (texts.filter fun text => !text.isEmpty)

theorem joinFragments_eq (fragments : List (List Char)) :
    joinFragments fragments = flow (fragments.map trim) := by
  unfold joinFragments flow
  congr 1
  induction fragments with
  | nil => rfl
  | cons fragment rest ih =>
      rw [List.map_cons, List.filterMap_cons, List.filter_cons, ih, nonBlank]
      cases (trim fragment).isEmpty with
      | true => rfl
      | false => rfl

theorem trimmed_flow {texts : List (List Char)} (each : ∀ text ∈ texts, Trimmed text) :
    Trimmed (flow texts) := by
  refine trimmed_join ?_
  intro text member
  obtain ⟨listed, nonempty⟩ := List.mem_filter.mp member
  refine ⟨each text listed, ?_⟩
  rintro rfl
  cases nonempty

/-! ### Lines of a text -/

theorem unlines_linesFrom {known text : List Char} (plain : '\r' ∉ known ++ text)
    (ended : ∀ character ∈ text.getLast?, character ≠ '\n') :
    unlines (linesFrom known text) = known.reverse ++ text := by
  induction text generalizing known with
  | nil =>
      cases known with
      | nil => rfl
      | cons character known =>
          rw [linesFrom, List.isEmpty_cons, if_neg Bool.false_ne_true, unlines_singleton,
            List.append_nil]
  | cons character rest ih =>
      rw [List.mem_append, List.mem_cons, not_or, not_or] at plain
      have inside : ∀ last ∈ rest.getLast?, last ≠ '\n' := by
        intro last found
        refine ended last ?_
        rw [List.getLast?_cons, Option.mem_def.mp found]
        rfl
      rw [linesFrom]
      split
      · next newline =>
          subst newline
          have finished : finishLine known.reverse.reverse = known.reverse :=
            finishLine_reverse fun member => plain.1 (List.mem_reverse.mp member)
          rw [List.reverse_reverse] at finished
          have later : unlines (linesFrom [] rest) = rest := ih plain.2.2 inside
          have rest_ne : rest ≠ [] := by
            rintro rfl
            exact ended '\n' rfl rfl
          have lines_ne : linesFrom [] rest ≠ [] := by
            intro nothing
            rw [nothing] at later
            exact rest_ne later.symm
          rw [finished, ← List.singleton_append,
            unlines_append (List.cons_ne_nil _ _) lines_ne, unlines_singleton, later]
      · rw [ih _ inside, List.reverse_cons, List.append_assoc]
        · rfl
        · rw [List.cons_append, List.mem_cons, List.mem_append, not_or, not_or]
          exact ⟨plain.2.1, plain.1, plain.2.2⟩

/-- A trimmed text is its lines. -/
theorem Trimmed.unlines_lines {text : List Char} (trimmed : Trimmed text) (plain : '\r' ∉ text) :
    unlines (lines text) = text := by
  show unlines (linesFrom [] text) = [].reverse ++ text
  refine unlines_linesFrom plain ?_
  intro character found newline
  have solid := trimmed.last character found
  subst newline
  cases solid

end DocHarvest.Text
