import DocHarvest.Proofs.Docstring.Content

/-!
Docstrings with headers such as `Args:`, written from their content.

Each entry has its head and a colon four spaces in, and goes on eight spaces in.  The reader finds
exactly what was written, whatever colons, parentheses or titles stand in the texts.
-/

namespace DocHarvest.Docstring.Google

open Text (Line isBlankText indentation Unbroken Trimmed)

/-! ### Content -/

structure Parameter where
  name : Label [':', '(']
  typeName : Option (Label [':']) := none
  description : Passage

inductive Return where
  | typed (typeName : Label [':']) (description : Passage)
  | untyped (opening : Label [':']) (more : List (Label []))

structure Raise where
  exception : Label [':']
  description : Passage

structure Content where
  description : Prose .google
  parameters : List Parameter
  returns : Option Return
  raises : List Raise

/-- A name with a type in parentheses. -/
def bracketed (name : Label [':', '(']) (typeName : Label [':']) : Label [':'] where
  text := name.text ++ " (".toList ++ typeName.text ++ ")".toList
  trimmed := by
    rw [List.append_assoc, List.append_assoc]
    refine .append name.nonempty (List.cons_ne_nil _ _) name.trimmed.first ?_
    intro character found
    rw [← List.append_assoc, List.getLast?_append] at found
    cases found
    decide
  unbroken :=
    ((name.unbroken.append (by decide)).append typeName.unbroken).append (by decide)
  nonempty := by
    rw [List.append_assoc, List.append_assoc]
    exact List.append_ne_nil_of_left_ne_nil name.nonempty _
  free := by
    intro mark listed
    rw [List.mem_singleton.mp listed]
    simp only [List.mem_append, not_or]
    exact ⟨⟨⟨name.free ':' (by decide), by decide⟩, typeName.free ':' (by decide)⟩, by decide⟩

def Parameter.head (parameter : Parameter) : Label [':'] :=
  match parameter.typeName with
  | none => parameter.name.relax (List.cons_subset_cons _ (List.nil_subset _))
  | some typeName => bracketed parameter.name typeName

def entryLines (head : Label [':']) (description : Passage) : List Line :=
  (spaces 4 ++ (head.text ++ ": ".toList ++ description.opening.text)) ::
    indent (spaces 8) description.continuations

def Parameter.lines (parameter : Parameter) : List Line :=
  entryLines parameter.head parameter.description

def Return.lines : Return → List Line
  | .typed typeName description => entryLines typeName description
  | .untyped opening more =>
      (spaces 4 ++ opening.text) :: indent (spaces 8) (more.map fun text => text.text)

def Raise.lines (entry : Raise) : List Line :=
  entryLines entry.exception entry.description

/-- The lines of a docstring, with some blank lines before the section about each topic. -/
def Content.lines (content : Content) (gap : Topic → Gap) : List Line :=
  content.description.lines ++
    headed (gap .parameters) ["Args:".toList] (content.parameters.flatMap Parameter.lines) ++
    headed (gap .returns) ["Returns:".toList] (content.returns.toList.flatMap Return.lines) ++
    headed (gap .raises) ["Raises:".toList] (content.raises.flatMap Raise.lines)

def Parameter.doc (parameter : Parameter) : DocParameter :=
  { name := String.ofList parameter.name.text
    typeName := parameter.typeName.map fun typeName => String.ofList typeName.text
    description := parameter.description.text }

def Return.doc : Return → DocReturn
  | .typed typeName description =>
      { typeName := some (String.ofList typeName.text), description := description.text }
  | .untyped opening more =>
      { typeName := none, description := (Passage.mk opening.toPhrase more).text }

def Raise.doc (entry : Raise) : DocRaise :=
  { exceptionType := String.ofList entry.exception.text, description := entry.description.text }

/-- What a docstring of this content says. -/
def Content.docstring (content : Content) : Docstring :=
  { description := String.ofList content.description.text
    parameters := content.parameters.map Parameter.doc
    returns := content.returns.map Return.doc
    raises := content.raises.map Raise.doc
    examples := [] }

/-! ### Heads of entries -/

theorem nameAndType_head (parameter : Parameter) :
    nameAndType parameter.head.text =
      (parameter.name.text, parameter.typeName.map fun typeName => typeName.text) := by
  have bracket : '(' ∉ parameter.name.text := parameter.name.free '(' (by decide)
  unfold nameAndType Parameter.head
  cases parameter.typeName with
  | none =>
      show ((Text.withoutLast ')' parameter.name.text).bind _).getD _ = _
      cases cut : Text.withoutLast ')' parameter.name.text with
      | none => rfl
      | some inner =>
          have ends := Text.withoutLast_eq_some.mp cut
          have absent : '(' ∉ inner := by
            intro member
            refine bracket ?_
            rw [ends]
            exact List.mem_append_left _ member
          rw [Option.bind_some, Text.splitOnce_mark_eq_none absent]
          rfl
  | some typeName =>
      have cut : Text.withoutLast ')' (bracketed parameter.name typeName).text =
          some ((parameter.name.text ++ [' ']) ++ '(' :: typeName.text) := by
        refine Text.withoutLast_eq_some.mpr ?_
        simp [bracketed]
      have absent : '(' ∉ parameter.name.text ++ [' '] := by
        rw [List.mem_append, not_or]
        exact ⟨bracket, by decide⟩
      have name : Text.nonBlank (parameter.name.text ++ [' ']) = some parameter.name.text := by
        refine Text.nonBlank_eq_some.mpr ⟨?_, parameter.name.nonempty⟩
        rw [Text.trim_append_blank (by decide), parameter.name.trimmed.trim_eq]
      simp only [cut, Option.bind_some, Text.splitOnce_mark absent, name, Option.map_some,
        typeName.trimmed.nonBlank_eq typeName.nonempty, Option.getD_some]

/-! ### Entries -/

/-- An entry without the margin of its section. -/
def entryBlock (head : Label [':']) (description : Passage) : List Line :=
  (head.text ++ ": ".toList ++ description.opening.text) ::
    indent (spaces 4) description.continuations

theorem entryLines_eq (head : Label [':']) (description : Passage) :
    entryLines head description = indent (spaces 4) (entryBlock head description) := by
  unfold entryLines entryBlock indent
  rw [List.map_cons, List.map_map]
  rfl

theorem entryBlock_low (head : Label [':']) (description : Passage) :
    ∃ line ∈ entryBlock head description, isBlankText line = false ∧ indentation line = 0 := by
  refine ⟨_, List.mem_cons_self, ?_, ?_⟩
  · rw [List.append_assoc, head.solid_append]
  · rw [List.append_assoc, head.indentation_append]

theorem dedent_entries {β : Type} (entries : List β) (head : β → Label [':'])
    (description : β → Passage) :
    dedent (entries.flatMap fun entry => entryLines (head entry) (description entry)) =
      entries.flatMap fun entry => entryBlock (head entry) (description entry) :=
  dedent_flatMap (isBlankText_spaces 4) (fun _entry _member => entryLines_eq _ _)
    (fun _entry _member => entryBlock_low _ _)

theorem parameterHead?_head (head : Label [':']) (phrase : Phrase) :
    parameterHead? (head.text ++ ": ".toList ++ phrase.text) =
      some (head.text, Text.trimEnd (' ' :: phrase.text)) := by
  have low : indentation (head.text ++ ": ".toList ++ phrase.text) = 0 := by
    rw [List.append_assoc, head.indentation_append]
  unfold parameterHead?
  rw [if_neg (not_not.mpr low), head.splitOnce_colon]

theorem parameterHead?_behind (count : Nat) (line : Line) :
    parameterHead? (spaces (count + 1) ++ line) = none := by
  unfold parameterHead?
  rw [if_pos (indentation_behind count line)]

theorem raiseHead?_head (head : Label [':']) (phrase : Phrase) :
    raiseHead? (head.text ++ ": ".toList ++ phrase.text) =
      some (head.text, [Text.trimEnd (' ' :: phrase.text)]) := by
  have low : indentation (head.text ++ ": ".toList ++ phrase.text) = 0 := by
    rw [List.append_assoc, head.indentation_append]
  have solid : isBlankText (head.text ++ ": ".toList ++ phrase.text) = false := by
    rw [List.append_assoc, head.solid_append]
  unfold raiseHead?
  rw [head.splitOnce_colon, solid, low]
  simp only [Bool.false_or, ne_eq, not_true_eq_false, decide_false, Bool.false_eq_true, if_false,
    head.trimmed.trim_eq]

theorem raiseHead?_behind (count : Nat) (line : Line) :
    raiseHead? (spaces (count + 1) ++ line) = none := by
  unfold raiseHead?
  rw [decide_eq_true (indentation_behind count line), Bool.or_true, if_pos rfl]

theorem parameters_entries (entries : List Parameter) :
    parameters (dedent (entries.flatMap Parameter.lines)) = entries.map Parameter.doc := by
  have blocks : dedent (entries.flatMap Parameter.lines) =
      entries.flatMap fun entry => entryBlock entry.head entry.description :=
    dedent_entries entries Parameter.head Parameter.description
  have found := groups_entries entries (fun entry => entry.description.continuations)
    (parameterHead?_behind 3)
    (fun entry _member => parameterHead?_head entry.head entry.description.opening)
  unfold parameters
  rw [blocks]
  unfold entryBlock
  rw [found, List.map_map]
  refine List.map_congr_left ?_
  intro entry _member
  simp only [Function.comp_apply, entry.head.trimmed.trim_eq, nameAndType_head, parameterOf,
    entry.description.joinFragments_eq 4 entry.description.opening.trim_after_colon,
    Option.map_map]
  rfl

theorem raises_entries (entries : List Raise) :
    raises (dedent (entries.flatMap Raise.lines)) = entries.map Raise.doc := by
  have blocks : dedent (entries.flatMap Raise.lines) =
      entries.flatMap fun entry => entryBlock entry.exception entry.description :=
    dedent_entries entries Raise.exception Raise.description
  have found := groups_entries entries (fun entry => entry.description.continuations)
    (raiseHead?_behind 3)
    (fun entry _member => raiseHead?_head entry.exception entry.description.opening)
  unfold raises
  rw [blocks]
  unfold entryBlock
  rw [found, List.map_map]
  refine List.map_congr_left ?_
  intro entry _member
  simp only [Function.comp_apply, raiseOf, List.singleton_append,
    entry.description.joinFragments_eq 4 entry.description.opening.trim_after_colon]
  rfl

theorem returns_entry (entry : Return) : returns (dedent entry.lines) = some entry.doc := by
  cases entry with
  | typed typeName description =>
      obtain ⟨line, member, solid, low⟩ := entryBlock_low typeName description
      have first : isBlankText (typeName.text ++ ": ".toList ++ description.opening.text) =
          false := by
        rw [List.append_assoc, typeName.solid_append]
      have block : (Return.typed typeName description).lines =
          indent (spaces 4) (entryBlock typeName description) := entryLines_eq typeName description
      unfold returns
      rw [block, dedent_behind (isBlankText_spaces 4) member solid low, entryBlock,
        List.dropWhile_cons, first, if_neg Bool.false_ne_true]
      simp only [typeName.splitOnce_colon, typeName.trimmed.nonBlank_eq typeName.nonempty,
        returnOf, description.joinFragments_eq 4 description.opening.trim_after_colon]
      rfl
  | untyped opening more =>
      have block : (Return.untyped opening more).lines = indent (spaces 4)
          (opening.text :: indent (spaces 4) (Passage.mk opening.toPhrase more).continuations) := by
        unfold Return.lines indent
        rw [List.map_cons, List.map_map]
        rfl
      have colon : ':' ∉ opening.text := opening.free ':' List.mem_cons_self
      unfold returns
      rw [block, dedent_behind (isBlankText_spaces 4) List.mem_cons_self opening.solid
        opening.trimmed.indentation_eq, List.dropWhile_cons, opening.solid,
        if_neg Bool.false_ne_true]
      simp only [opening.trimmed.trim_eq, Text.splitOnce_mark_eq_none colon, returnOf,
        (Passage.mk opening.toPhrase more).joinFragments_eq 4 opening.trimmed.trim_eq]
      rfl

theorem returns_entries (entry : Option Return) :
    returns (dedent (entry.toList.flatMap Return.lines)) = entry.map Return.doc :=
  read_optional rfl returns_entry entry

/-! ### Sections -/

theorem header?_behind (count : Nat) (line : Line) :
    header? (spaces (count + 1) ++ line) = none := by
  unfold header?
  rw [if_pos (indentation_behind count line)]

theorem entryLines_behind {head : Label [':']} {description : Passage} {line : Line}
    (member : line ∈ entryLines head description) :
    Unbroken line ∧ ∃ rest, line = spaces 4 ++ rest := by
  rw [entryLines_eq] at member
  obtain ⟨inner, present, rfl⟩ := mem_indent.mp member
  refine ⟨(unbroken_spaces 4).append ?_, inner, rfl⟩
  rcases List.mem_cons.mp present with rfl | continued
  · exact (head.unbroken.append (by decide)).append description.opening.unbroken
  · exact unbroken_indent description.unbroken_continuations 4 inner continued

theorem Return.lines_behind {entry : Return} {line : Line} (member : line ∈ entry.lines) :
    Unbroken line ∧ ∃ rest, line = spaces 4 ++ rest := by
  cases entry with
  | typed typeName description => exact entryLines_behind member
  | untyped opening more =>
      rcases List.mem_cons.mp member with rfl | continued
      · exact ⟨(unbroken_spaces 4).append opening.unbroken, _, rfl⟩
      · refine ⟨unbroken_indent (Passage.mk opening.toPhrase more).unbroken_continuations 8 line
          continued, ?_⟩
        obtain ⟨text, _present, rfl⟩ := mem_indent.mp continued
        exact ⟨spaces 4 ++ text, rfl⟩

theorem opens {topic : Topic} {heading : Line} (title : Line) {body : List Line}
    (titled : header? heading = some title ∧ Topic.ofTitle title = topic ∧ Unbroken heading)
    (behind : ∀ line ∈ body, Unbroken line ∧ ∃ rest, line = spaces 4 ++ rest) :
    Opens .google topic [heading] body where
  whole := by
    have passed : ∀ line ∈ body, header? line = none := by
      intro line member
      obtain ⟨_unbroken, rest, rfl⟩ := behind line member
      exact header?_behind 3 rest
    refine ⟨title, titled.2.1, ?_⟩
    simp only [Docstring.outline, outline, List.singleton_append, groups_headed titled.1 passed,
      List.map_cons, List.map_nil]
  flush := by
    have found : (header? heading).isSome = true := by rw [titled.1, Option.isSome_some]
    refine .of_mem List.mem_cons_self ?_ (header?_isSome_iff.mp found).1
    rw [← Bool.not_eq_true]
    intro blank
    rw [header?_of_blank heading blank] at found
    cases found
  unbroken := by
    intro line member
    rcases List.mem_cons.mp member with rfl | inBody
    · exact titled.2.2
    · exact (behind line inBody).1

/-- A docstring written from its content says exactly this content. -/
theorem parse_headed_content (content : Content) (gap : Topic → Gap) :
    parse .google (String.ofList (Text.unlines (content.lines gap))) = content.docstring := by
  have parameters : Opens .google .parameters ["Args:".toList]
      (content.parameters.flatMap Parameter.lines) := by
    refine opens "Args".toList (by decide) ?_
    intro line member
    obtain ⟨entry, _listed, present⟩ := List.mem_flatMap.mp member
    exact entryLines_behind present
  have returns : Opens .google .returns ["Returns:".toList]
      (content.returns.toList.flatMap Return.lines) := by
    refine opens "Returns".toList (by decide) ?_
    intro line member
    obtain ⟨entry, _listed, present⟩ := List.mem_flatMap.mp member
    exact entry.lines_behind present
  have raises : Opens .google .raises ["Raises:".toList]
      (content.raises.flatMap Raise.lines) := by
    refine opens "Raises".toList (by decide) ?_
    intro line member
    obtain ⟨entry, _listed, present⟩ := List.mem_flatMap.mp member
    exact entryLines_behind present
  unfold Content.lines Content.docstring
  rw [parse_titled rfl ⟨rfl, rfl, rfl⟩ content.description gap parameters returns raises,
    ← parameters_entries, ← returns_entries, ← raises_entries]
  rfl

def settings : Content where
  description := { text := "Load settings.\n\n  Note: eager\n:".toList }
  parameters :=
    [{ name := { text := "path".toList }
       typeName := some { text := "Path (or str)".toList }
       description :=
        { opening := { text := "Where: (a file)".toList }
          more := [{ text := "Returns:".toList }] } },
      { name := { text := "strict)".toList }, description := { opening := .empty } }]
  returns := some (.untyped { text := "The settings".toList } [{ text := "a: b".toList }])
  raises :=
    [{ exception := { text := "KeyError".toList }
       description := { opening := { text := ">>> x".toList } } }]

set_option maxRecDepth 4000 in
theorem parse_headed_content_settings :
    parse .google (String.ofList (Text.unlines
        (["Load settings.", "", "  Note: eager", ":", "",
          "Args:", "    path (Path (or str)): Where: (a file)", "        Returns:",
          "    strict): ", "",
          "Returns:", "    The settings", "        a: b", "",
          "Raises:", "    KeyError: >>> x"].map String.toList))) =
      { description := "Load settings.\n\n  Note: eager\n:"
        parameters :=
          [⟨"path", some "Path (or str)", "Where: (a file) Returns:"⟩, ⟨"strict)", none, ""⟩]
        returns := some ⟨none, "The settings a: b"⟩
        raises := [⟨"KeyError", ">>> x"⟩]
        examples := [] } :=
  parse_headed_content settings fun _topic => {}

end DocHarvest.Docstring.Google
