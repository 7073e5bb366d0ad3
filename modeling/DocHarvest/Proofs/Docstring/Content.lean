import DocHarvest.Proofs.Docstring.Composition

/-!
What a docstring is written from, in any convention.

The pieces carry what makes them readable: a phrase stays on its line and has no blanks at its
ends, a label also says something and does without the marks of its convention, and no line of the
prose before the sections is a boundary.
-/

namespace DocHarvest.Docstring

open Text (Line isBlankText indentation Unbroken Trimmed)

/-! ### Pieces of text -/

structure Phrase where
  text : Line
  trimmed : Trimmed text := by decide
  unbroken : Unbroken text := by decide

def Phrase.empty : Phrase where
  text := []

/-- None of some marks stands in a text. -/
def Without (barred : List Char) (text : Line) : Prop :=
  ∀ mark ∈ barred, mark ∉ text

-- said outright: a search might quantify over all characters
instance (barred : List Char) (text : Line) : Decidable (Without barred text) :=
  List.decidableBAll (fun mark => mark ∉ text) barred

structure Label (barred : List Char) extends Phrase where
  nonempty : text ≠ [] := by decide
  free : Without barred text := by decide

def Label.relax {barred fewer : List Char} (label : Label barred)
    (listed : fewer ⊆ barred) : Label fewer :=
  { label with free := fun mark member => label.free mark (listed member) }

theorem Label.solid {barred : List Char} (label : Label barred) :
    isBlankText label.text = false :=
  label.trimmed.solid label.nonempty

theorem Label.solid_append {barred : List Char} (label : Label barred) (rest : Line) :
    isBlankText (label.text ++ rest) = false := by
  rw [Text.isBlankText_append, label.solid, Bool.false_and]

theorem Label.indentation_append {barred : List Char} (label : Label barred) (rest : Line) :
    indentation (label.text ++ rest) = 0 := by
  cases text : label.text with
  | nil => exact absurd text label.nonempty
  | cons character more =>
      have solid := label.trimmed.first character (by rw [text]; rfl)
      unfold indentation
      rw [List.cons_append, List.takeWhile_cons, solid, if_neg Bool.false_ne_true]
      rfl

/-- A description: one text, which may be empty, and the texts on the lines after it. -/
structure Passage where
  opening : Phrase
  more : List (Label []) := []

def Passage.continuations (passage : Passage) : List Line :=
  passage.more.map fun continuation => continuation.text

/-- The texts of a description that are not empty, with single spaces between them. -/
def Passage.text (passage : Passage) : String :=
  String.ofList (Text.flow (passage.opening.text :: passage.continuations))

/-- Free text of which no line is a boundary. -/
structure Prose (style : Style) where
  text : List Char
  trimmed : Trimmed text := by decide
  plain : '\r' ∉ text := by decide
  free : ∀ line ∈ Text.lines text, ¬ Boundary style line := by decide

/-- Some blank lines. -/
structure Gap where
  lines : List Line := [[]]
  blank : lines.all isBlankText = true := by decide
  unbroken : ∀ line ∈ lines, Unbroken line := by decide

def spaces (count : Nat) : List Char :=
  List.replicate count ' '

theorem isBlankText_spaces (count : Nat) : isBlankText (spaces count) = true := by
  refine List.all_eq_true.mpr ?_
  intro character member
  rw [List.eq_of_mem_replicate member]
  decide

theorem unbroken_spaces (count : Nat) : Unbroken (spaces count) := by
  constructor
  · intro member
    cases List.eq_of_mem_replicate member
  · intro member
    cases List.eq_of_mem_replicate member

theorem indentation_spaces (count : Nat) (line : Line) :
    indentation (spaces count ++ line) = count + indentation line := by
  rw [Text.indentation_blank_append (isBlankText_spaces count), spaces, List.length_replicate]

theorem indentation_behind (count : Nat) (line : Line) :
    indentation (spaces (count + 1) ++ line) ≠ 0 := by
  rw [indentation_spaces]
  omega

theorem Phrase.trim_behind (phrase : Phrase) (count : Nat) :
    Text.trim (spaces count ++ phrase.text) = phrase.text :=
  phrase.trimmed.trim_behind (isBlankText_spaces count)

theorem trim_colon (front : Line) (nonempty : front ≠ [])
    (first : ∀ character ∈ front.head?, Text.isBlank character = false) (phrase : Phrase) :
    Text.trim (front ++ ": ".toList ++ phrase.text) =
      front ++ ':' :: Text.trimEnd (' ' :: phrase.text) := by
  have whole : front ++ ": ".toList ++ phrase.text = (front ++ [':']) ++ ' ' :: phrase.text := by
    simp
  rw [whole, Text.trim_append_of_solid]
  · rw [List.append_assoc, List.singleton_append]
  · exact List.append_ne_nil_of_left_ne_nil nonempty _
  · intro character found
    rw [List.head?_append_of_ne_nil _ nonempty] at found
    exact first character found
  · intro character found
    rw [List.getLast?_concat] at found
    cases found
    decide

theorem Phrase.trim_after_colon (phrase : Phrase) :
    Text.trim (Text.trimEnd (' ' :: phrase.text)) = phrase.text := by
  rw [Text.trim_trimEnd]
  exact phrase.trim_behind 1

theorem Label.splitOnce_colon (head : Label [':']) (phrase : Phrase) :
    Text.splitOnce [':'] (Text.trim (head.text ++ ": ".toList ++ phrase.text)) =
      some (head.text, Text.trimEnd (' ' :: phrase.text)) := by
  rw [trim_colon head.text head.nonempty head.trimmed.first,
    Text.splitOnce_mark (head.free ':' List.mem_cons_self)]

theorem map_trim_indent {texts : List Line} (trimmed : ∀ text ∈ texts, Trimmed text)
    (count : Nat) : (indent (spaces count) texts).map Text.trim = texts := by
  unfold indent
  rw [List.map_map]
  conv => rhs; rw [← List.map_id texts]
  refine List.map_congr_left ?_
  intro text member
  exact (trimmed text member).trim_behind (isBlankText_spaces count)

theorem Passage.trimmed_continuations (passage : Passage) :
    ∀ text ∈ passage.continuations, Trimmed text := by
  intro text member
  obtain ⟨continuation, _present, rfl⟩ := List.mem_map.mp member
  exact continuation.trimmed

theorem Passage.unbroken_continuations (passage : Passage) :
    ∀ text ∈ passage.continuations, Unbroken text := by
  intro text member
  obtain ⟨continuation, _present, rfl⟩ := List.mem_map.mp member
  exact continuation.unbroken

/-- A description is read from a text with blanks around it and lines behind a margin. -/
theorem Passage.joinFragments_eq (passage : Passage) {opening : Line} (count : Nat)
    (same : Text.trim opening = passage.opening.text) :
    String.ofList (Text.joinFragments (opening :: indent (spaces count) passage.continuations)) =
      passage.text := by
  rw [Text.joinFragments_eq, List.map_cons, map_trim_indent passage.trimmed_continuations, same]
  rfl

/-! ### The description -/

def Prose.lines {style : Style} (prose : Prose style) : List Line :=
  Text.lines prose.text

theorem Prose.unbroken {style : Style} (prose : Prose style) :
    ∀ line ∈ prose.lines, Unbroken line :=
  fun _line => Text.unbroken_of_mem_lines prose.plain

theorem Prose.flush {style : Style} (prose : Prose style) : Flush prose.lines := by
  have whole := prose.trimmed.unlines_lines prose.plain
  have newline : Text.isBlank '\n' = true := by decide
  cases listed : prose.lines with
  | nil => exact .of_blank rfl
  | cons line rest =>
      rw [show Text.lines prose.text = line :: rest from listed] at whole
      cases line with
      | cons character more =>
          have found : prose.text.head? = some character := by
            rw [← whole]
            cases rest with
            | nil =>
                rw [Text.unlines_singleton]
                rfl
            | cons second rest =>
                rw [Text.unlines_cons_cons]
                rfl
          have solid := prose.trimmed.first character found
          refine .of_mem List.mem_cons_self ?_ ?_
          · rw [Text.isBlankText_cons, solid]
            rfl
          · unfold indentation
            rw [List.takeWhile_cons, solid, if_neg Bool.false_ne_true]
            rfl
      | nil =>
          cases rest with
          | nil => exact .of_blank rfl
          | cons second rest =>
              rw [Text.unlines_cons_cons, List.nil_append] at whole
              have solid := prose.trimmed.first '\n' (by rw [← whole]; rfl)
              rw [newline] at solid
              cases solid

theorem Prose.ofLines_eq {style : Style} (prose : Prose style) :
    ofLines style prose.lines = { empty with description := String.ofList prose.text } := by
  unfold ofLines Prose.lines
  rw [outline_of_plain style prose.free]
  dsimp only
  rw [prose.trimmed.unlines_lines prose.plain, prose.trimmed.trim_eq]
  cases style with
  | google => rfl
  | numpy => rfl
  | rest => rfl

/-! ### Sections under a heading -/

/-- A heading and its body after blank lines; a section without a body is left out. -/
def headed (gap : Gap) (heading body : List Line) : List Line :=
  if body.isEmpty then [] else gap.lines ++ (heading ++ body)

/-- A heading opens a section about a topic, and its body is the whole of that section. -/
structure Opens (style : Style) (topic : Topic) (heading body : List Line) : Prop where
  whole : ∃ title, Topic.ofTitle title = topic ∧
    outline style (heading ++ body) = ⟨[], [⟨title, body⟩]⟩
  flush : Flush (heading ++ body)
  unbroken : ∀ line ∈ heading ++ body, Unbroken line

section Headed

variable {style : Style} {topic : Topic} {heading body : List Line}

theorem Opens.unbroken_headed (opens : Opens style topic heading body) (gap : Gap) :
    ∀ line ∈ headed gap heading body, Unbroken line := by
  intro line member
  unfold headed at member
  split at member
  · cases member
  · rcases List.mem_append.mp member with inGap | inSection
    · exact gap.unbroken line inGap
    · exact opens.unbroken line inSection

theorem Opens.flush_headed (opens : Opens style topic heading body) (gap : Gap) :
    Flush (headed gap heading body) := by
  unfold headed
  split
  · exact .of_blank rfl
  · exact (Flush.of_blank gap.blank).append opens.flush

variable {topics : Topics} (titled : interpret style = addSections topics)

include titled

/-- What a section of a topic adds is left out with it if its body is empty. -/
theorem Opens.ofLines_headed (opens : Opens style topic heading body) (gap : Gap)
    (front : List Line)
    (idle : ∀ docstring title, Topic.ofTitle title = topic →
      addSection topics docstring ⟨title, []⟩ = docstring) :
    ∃ title, Topic.ofTitle title = topic ∧
      ofLines style (front ++ headed gap heading body) =
        addSection topics (ofLines style front) ⟨title, body⟩ := by
  obtain ⟨title, kind, whole⟩ := opens.whole
  refine ⟨title, kind, ?_⟩
  unfold headed
  cases body with
  | nil => rw [List.isEmpty_nil, if_pos rfl, List.append_nil, idle _ title kind]
  | cons line rest =>
      rw [List.isEmpty_cons, if_neg Bool.false_ne_true]
      exact ofLines_section titled gap.blank whole

end Headed

section Titled

variable {style : Style} {topics : Topics}

theorem addSection_parameters {title : Line} (kind : Topic.ofTitle title = .parameters)
    (docstring : Docstring) (body : List Line) :
    addSection topics docstring ⟨title, body⟩ =
      { docstring with parameters := docstring.parameters ++ topics.parameters (dedent body) } := by
  unfold addSection
  rw [kind]

theorem addSection_returns {title : Line} (kind : Topic.ofTitle title = .returns)
    (docstring : Docstring) (body : List Line) :
    addSection topics docstring ⟨title, body⟩ =
      { docstring with returns := (topics.returns (dedent body)).or docstring.returns } := by
  unfold addSection
  rw [kind]

theorem addSection_raises {title : Line} (kind : Topic.ofTitle title = .raises)
    (docstring : Docstring) (body : List Line) :
    addSection topics docstring ⟨title, body⟩ =
      { docstring with raises := docstring.raises ++ topics.raises (dedent body) } := by
  unfold addSection
  rw [kind]

/-- A titled convention reads nothing from nothing. -/
structure Topics.Idle (topics : Topics) : Prop where
  parameters : topics.parameters [] = []
  returns : topics.returns [] = none
  raises : topics.raises [] = []

variable {parameterHeading parameterBody returnHeading returnBody raiseHeading raiseBody : List Line}

/-- A docstring written section by section says what its description and the bodies of its
sections say. -/
theorem parse_titled (titled : interpret style = addSections topics) (idle : topics.Idle)
    (prose : Prose style) (gap : Topic → Gap)
    (parameters : Opens style .parameters parameterHeading parameterBody)
    (returns : Opens style .returns returnHeading returnBody)
    (raises : Opens style .raises raiseHeading raiseBody) :
    parse style (String.ofList (Text.unlines (prose.lines ++
        headed (gap .parameters) parameterHeading parameterBody ++
        headed (gap .returns) returnHeading returnBody ++
        headed (gap .raises) raiseHeading raiseBody))) =
      { description := String.ofList prose.text
        parameters := topics.parameters (dedent parameterBody)
        returns := topics.returns (dedent returnBody)
        raises := topics.raises (dedent raiseBody)
        examples := [] } := by
  have flush := ((prose.flush.append (parameters.flush_headed (gap .parameters))).append
    (returns.flush_headed (gap .returns))).append (raises.flush_headed (gap .raises))
  rw [flush.parse_unlines style]
  · obtain ⟨_, first, withParameters⟩ := parameters.ofLines_headed titled (gap .parameters)
      prose.lines (by
        intro docstring title kind
        rw [addSection_parameters kind, show dedent [] = [] from rfl, idle.parameters,
          List.append_nil])
    obtain ⟨_, second, withReturns⟩ := returns.ofLines_headed titled (gap .returns)
      (prose.lines ++ headed (gap .parameters) parameterHeading parameterBody) (by
        intro docstring title kind
        rw [addSection_returns kind, show dedent [] = [] from rfl, idle.returns]
        rfl)
    obtain ⟨_, third, withRaises⟩ := raises.ofLines_headed titled (gap .raises)
      (prose.lines ++ headed (gap .parameters) parameterHeading parameterBody ++
        headed (gap .returns) returnHeading returnBody) (by
        intro docstring title kind
        rw [addSection_raises kind, show dedent [] = [] from rfl, idle.raises, List.append_nil])
    rw [withRaises, withReturns, withParameters, addSection_raises third,
      addSection_returns second, addSection_parameters first, prose.ofLines_eq]
    simp [empty]
  · intro line member
    rw [List.mem_append, List.mem_append, List.mem_append] at member
    rcases member with ((inProse | inParameters) | inReturns) | inRaises
    · exact prose.unbroken line inProse
    · exact parameters.unbroken_headed _ line inParameters
    · exact returns.unbroken_headed _ line inReturns
    · exact raises.unbroken_headed _ line inRaises

end Titled

/-! ### Entries -/

theorem dedent_behind {margin : List Char} {lines : List Line} {line : Line}
    (blank : isBlankText margin = true) (member : line ∈ lines) (solid : isBlankText line = false)
    (low : indentation line = 0) : dedent (indent margin lines) = lines := by
  rw [dedent_indent blank member solid]
  exact (Flush.of_mem member solid low).dedent_eq

/-- Blocks behind one margin lose it, if each has a line that is only behind the margin. -/
theorem dedent_flatMap {β : Type} {margin : List Char} (blank : isBlankText margin = true)
    {blocks : List β} {written block : β → List Line}
    (behind : ∀ entry ∈ blocks, written entry = indent margin (block entry))
    (low : ∀ entry ∈ blocks, ∃ line ∈ block entry,
      isBlankText line = false ∧ indentation line = 0) :
    dedent (blocks.flatMap written) = blocks.flatMap block := by
  have together : blocks.flatMap written = indent margin (blocks.flatMap block) := by
    unfold indent
    rw [List.map_flatMap]
    exact List.flatMap_congr behind
  rw [together]
  cases blocks with
  | nil => rfl
  | cons entry rest =>
      obtain ⟨line, member, solid, zero⟩ := low entry List.mem_cons_self
      have present : line ∈ (entry :: rest).flatMap block :=
        List.mem_flatMap.mpr ⟨entry, List.mem_cons_self, member⟩
      exact dedent_behind blank present solid zero

/-- An optional entry is read if its lines are read where they stand. -/
theorem read_optional {α β : Type} {read : List Line → Option α} {written : β → List Line}
    {said : β → α} (nothing : read [] = none)
    (each : ∀ entry, read (dedent (written entry)) = some (said entry)) (entry : Option β) :
    read (dedent (entry.toList.flatMap written)) = entry.map said := by
  cases entry with
  | none => exact nothing
  | some entry =>
      rw [Option.toList_some, List.flatMap_singleton, each]
      rfl

theorem unbroken_indent {texts : List Line} (unbroken : ∀ text ∈ texts, Unbroken text)
    (count : Nat) : ∀ line ∈ indent (spaces count) texts, Unbroken line := by
  intro line member
  obtain ⟨text, present, rfl⟩ := mem_indent.mp member
  exact (unbroken_spaces count).append (unbroken text present)

/-- Entries of which only the first line has no indentation are told apart. -/
theorem groups_entries {α β : Type} {head : Line → Option α} (entries : List β)
    {first : β → Line} (more : β → List Line) {accepted : β → α}
    (behind : ∀ line, head (spaces 4 ++ line) = none)
    (taken : ∀ entry ∈ entries, head (first entry) = some (accepted entry)) :
    Text.groups head (entries.flatMap fun entry => first entry :: indent (spaces 4) (more entry)) =
      ([], entries.map fun entry => (accepted entry, indent (spaces 4) (more entry))) := by
  refine groups_flatMap taken ?_
  intro entry _member line listed
  obtain ⟨text, _present, rfl⟩ := mem_indent.mp listed
  exact behind text

end DocHarvest.Docstring
