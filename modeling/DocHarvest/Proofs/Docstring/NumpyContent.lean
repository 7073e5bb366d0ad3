import DocHarvest.Proofs.Docstring.Content

/-!
Docstrings with underlined section titles, written from their content.

Each entry has its head at the margin and its texts four spaces in; only a return value without a
type has its texts at the margin.  No line but the underlines themselves looks like one, so that
the reader finds each title and nothing else.
-/

namespace DocHarvest.Docstring.Numpy

open Text (Line isBlankText indentation Unbroken Trimmed)

/-! ### Content -/

/-- A label that does not look like an underline. -/
structure Term (barred : List Char) extends Label barred where
  plain : ¬ Underline text := by decide

structure Parameter where
  name : Term [':']
  typeName : Option (Term []) := none
  texts : List (Term [])

inductive Return where
  | typed (typeName : Term []) (undivided : ¬ " : ".toList <:+: typeName.text)
      (first : Term []) (more : List (Term []))
  | untyped (first : Term []) (undivided : ¬ " : ".toList <:+: first.text)
      (more : List (Term []))

structure Raise where
  exception : Term []
  texts : List (Term [])

structure Content where
  description : Prose .numpy
  parameters : List Parameter
  returns : Option Return
  raises : List Raise

def texts (terms : List (Term [])) : List Line :=
  terms.map fun term => term.text

/-- A name with a type behind the divider. -/
def divided (name : Term [':']) (typeName : Term []) : Label [] where
  text := name.text ++ " : ".toList ++ typeName.text
  trimmed := by
    rw [List.append_assoc]
    refine .append name.nonempty (List.cons_ne_nil _ _) name.trimmed.first ?_
    intro character found
    rw [List.getLast?_append_of_ne_nil _ typeName.nonempty] at found
    exact typeName.trimmed.last character found
  unbroken := (name.unbroken.append (by decide)).append typeName.unbroken
  nonempty := by
    rw [List.append_assoc]
    exact List.append_ne_nil_of_left_ne_nil name.nonempty _
  free := fun _mark listed => absurd listed List.not_mem_nil

def Parameter.head (parameter : Parameter) : Label [] :=
  match parameter.typeName with
  | none => parameter.name.relax (List.nil_subset _)
  | some typeName => divided parameter.name typeName

def entryLines (head : Line) (terms : List (Term [])) : List Line :=
  head :: indent (spaces 4) (texts terms)

def Parameter.lines (parameter : Parameter) : List Line :=
  entryLines parameter.head.text parameter.texts

def Return.lines : Return → List Line
  | .typed typeName _undivided first more => entryLines typeName.text (first :: more)
  | .untyped first _undivided more => texts (first :: more)

def Raise.lines (entry : Raise) : List Line :=
  entryLines entry.exception.text entry.texts

/-- A title over hyphens, one more than the given count. -/
def underlined (title : String) (count : Nat) : List Line :=
  [title.toList, List.replicate (count + 1) '-']

/-- The lines of a docstring, with some blank lines before the section about each topic and an
underline of some length in it. -/
def Content.lines (content : Content) (gap : Topic → Gap) (width : Topic → Nat) : List Line :=
  content.description.lines ++
    headed (gap .parameters) (underlined "Parameters" (width .parameters))
      (content.parameters.flatMap Parameter.lines) ++
    headed (gap .returns) (underlined "Returns" (width .returns))
      (content.returns.toList.flatMap Return.lines) ++
    headed (gap .raises) (underlined "Raises" (width .raises))
      (content.raises.flatMap Raise.lines)

/-- Texts with single spaces between them. -/
def joined (terms : List (Term [])) : String :=
  String.ofList (Text.join [' '] (texts terms))

def Parameter.doc (parameter : Parameter) : DocParameter :=
  { name := String.ofList parameter.name.text
    typeName := parameter.typeName.map fun typeName => String.ofList typeName.text
    description := joined parameter.texts }

def Return.doc : Return → DocReturn
  | .typed typeName _undivided first more =>
      { typeName := some (String.ofList typeName.text), description := joined (first :: more) }
  | .untyped first _undivided more =>
      { typeName := none, description := joined (first :: more) }

def Raise.doc (entry : Raise) : DocRaise :=
  { exceptionType := String.ofList entry.exception.text, description := joined entry.texts }

/-- What a docstring of this content says. -/
def Content.docstring (content : Content) : Docstring :=
  { description := String.ofList content.description.text
    parameters := content.parameters.map Parameter.doc
    returns := content.returns.map Return.doc
    raises := content.raises.map Raise.doc
    examples := [] }

/-! ### Lines that are no underlines -/

theorem exists_term_of_mem {terms : List (Term [])} {text : Line} (member : text ∈ texts terms) :
    ∃ term : Term [], text = term.text := by
  obtain ⟨term, _listed, same⟩ := List.mem_map.mp member
  exact ⟨term, same.symm⟩

theorem underline_behind {count : Nat} {line : Line} :
    Underline (spaces count ++ line) ↔ Underline line := by
  unfold Underline
  rw [Text.trim_blank_append (isBlankText_spaces count)]

theorem not_underline_of_mem {line : Line} {mark : Char} (member : mark ∈ Text.trim line)
    (other : mark ≠ '-' ∧ mark ≠ '=') : ¬ Underline line := by
  rintro ⟨length, hyphens | equals⟩
  · rw [hyphens] at member
    exact other.1 (List.eq_of_mem_replicate member)
  · rw [equals] at member
    exact other.2 (List.eq_of_mem_replicate member)

theorem Parameter.head_plain (parameter : Parameter) : ¬ Underline parameter.head.text := by
  unfold head
  cases parameter.typeName with
  | none => exact parameter.name.plain
  | some typeName =>
      have colon : ':' ∈ Text.trim (divided parameter.name typeName).text := by
        rw [(divided parameter.name typeName).trimmed.trim_eq]
        exact List.mem_append_left _ (List.mem_append_right _ (by decide))
      exact not_underline_of_mem colon (by decide)

/-- A line of a section: it neither breaks nor looks like an underline. -/
def Inner (line : Line) : Prop :=
  Unbroken line ∧ ¬ Underline line

instance (line : Line) : Decidable (Inner line) :=
  inferInstanceAs (Decidable (Unbroken line ∧ ¬ Underline line))

theorem Term.inner (term : Term []) : Inner term.text :=
  ⟨term.unbroken, term.plain⟩

theorem inner_entryLines {head : Line} {terms : List (Term [])} (first : Inner head) :
    ∀ line ∈ entryLines head terms, Inner line := by
  intro line member
  rcases List.mem_cons.mp member with rfl | behind
  · exact first
  · obtain ⟨text, listed, rfl⟩ := mem_indent.mp behind
    obtain ⟨term, rfl⟩ := exists_term_of_mem listed
    exact ⟨(unbroken_spaces 4).append term.unbroken, fun rule => term.plain (underline_behind.mp rule)⟩

theorem Return.inner_lines (entry : Return) : ∀ line ∈ entry.lines, Inner line := by
  cases entry with
  | typed typeName _undivided first more => exact inner_entryLines typeName.inner
  | untyped first _undivided more =>
      intro line member
      obtain ⟨term, rfl⟩ := exists_term_of_mem member
      exact term.inner

/-! ### Entries -/

theorem joinFragments_behind (terms : List (Term [])) (count : Nat) :
    String.ofList (Text.joinFragments (indent (spaces count) (texts terms))) = joined terms := by
  have trimmed : ∀ text ∈ texts terms, Trimmed text := by
    intro text member
    obtain ⟨term, rfl⟩ := exists_term_of_mem member
    exact term.trimmed
  have kept : (texts terms).filter (fun text => !text.isEmpty) = texts terms := by
    rw [List.filter_eq_self]
    intro text member
    obtain ⟨term, rfl⟩ := exists_term_of_mem member
    rw [Bool.not_eq_true', List.isEmpty_eq_false_iff]
    exact term.nonempty
  unfold joined
  rw [Text.joinFragments_eq, map_trim_indent trimmed, Text.flow, kept]

theorem dedent_entries {β : Type} (entries : List β) (head : β → Label [])
    (terms : β → List (Term [])) :
    dedent (entries.flatMap fun entry => entryLines (head entry).text (terms entry)) =
      entries.flatMap fun entry => entryLines (head entry).text (terms entry) := by
  refine dedent_flatMap (isBlankText_spaces 0) (fun entry _member => (List.map_id _).symm) ?_
  intro entry _member
  exact ⟨_, List.mem_cons_self, (head entry).solid, (head entry).trimmed.indentation_eq⟩

theorem entryHead?_head (head : Label []) : entryHead? head.text = some head.text := by
  unfold entryHead?
  rw [head.solid, head.trimmed.indentation_eq, head.trimmed.trim_eq]
  rfl

theorem entryHead?_behind (count : Nat) (line : Line) :
    entryHead? (spaces (count + 1) ++ line) = none := by
  unfold entryHead?
  rw [decide_eq_true (indentation_behind count line), Bool.or_true, if_pos rfl]

theorem groups_entryLines {β : Type} (entries : List β) (head : β → Label [])
    (terms : β → List (Term [])) :
    (Text.groups entryHead?
      (dedent (entries.flatMap fun entry => entryLines (head entry).text (terms entry)))).2 =
      entries.map fun entry => ((head entry).text, indent (spaces 4) (texts (terms entry))) := by
  rw [dedent_entries]
  unfold entryLines
  rw [groups_entries entries _ (entryHead?_behind 3) fun entry _member => entryHead?_head (head entry)]

theorem parameters_entries (entries : List Parameter) :
    parameters (dedent (entries.flatMap Parameter.lines)) = entries.map Parameter.doc := by
  have found := groups_entryLines entries Parameter.head Parameter.texts
  unfold parameters Parameter.lines
  rw [found, List.map_map]
  refine List.map_congr_left ?_
  intro entry _member
  have colon : ':' ∉ entry.name.text := entry.name.free ':' List.mem_cons_self
  rw [Function.comp_apply]
  unfold Parameter.head Parameter.doc
  cases entry.typeName with
  | none =>
      have whole : Text.splitOnce divider entry.name.text = none :=
        Text.splitOnce_eq_none fun found => colon (found.subset (by decide))
      simp only [Label.relax, whole, parameterOf, joinFragments_behind, Option.map_none]
  | some typeName =>
      have cut : Text.splitOnce divider (divided entry.name typeName).text =
          some (entry.name.text, typeName.text) :=
        Text.splitOnce_append [' '] [' '] (by decide) colon typeName.text
      simp only [cut, parameterOf, joinFragments_behind, entry.name.trimmed.trim_eq,
        typeName.trimmed.nonBlank_eq typeName.nonempty, Option.map_some]

theorem raises_entries (entries : List Raise) :
    raises (dedent (entries.flatMap Raise.lines)) = entries.map Raise.doc := by
  have found := groups_entryLines entries (fun entry => entry.exception.toLabel) Raise.texts
  unfold raises Raise.lines
  rw [found, List.map_map]
  refine List.map_congr_left ?_
  intro entry _member
  simp only [Function.comp_apply, raiseOf, joinFragments_behind, Raise.doc]

theorem returns_entry (entry : Return) : returns (dedent entry.lines) = some entry.doc := by
  cases entry with
  | typed typeName undivided first more =>
      have block := dedent_entries [()] (fun _ => typeName.toLabel) (fun _ => first :: more)
      simp only [List.flatMap_singleton] at block
      have deep : 0 < indentation (spaces 4 ++ first.text) :=
        Nat.pos_of_ne_zero (indentation_behind 3 first.text)
      have follows : ((indent (spaces 4) (texts (first :: more))).any fun line =>
          !isBlankText line && 0 < indentation line) = true := by
        refine List.any_eq_true.mpr ⟨_, List.mem_cons_self, ?_⟩
        rw [isBlankText_indented (isBlankText_spaces 4), first.solid, decide_eq_true deep]
        rfl
      unfold returns Return.lines
      rw [block, entryLines, List.dropWhile_cons, typeName.solid, if_neg Bool.false_ne_true]
      simp only [typeName.trimmed.trim_eq, divider, Text.splitOnce_eq_none undivided, follows,
        if_true, returnOf, joinFragments_behind, Option.map_some]
      rfl
  | untyped first undivided more =>
      have flush : Flush (texts (first :: more)) :=
        .of_mem List.mem_cons_self first.solid first.trimmed.indentation_eq
      have level : ((texts more).any fun line =>
          !isBlankText line && 0 < indentation line) = false := by
        rw [List.any_eq_false]
        intro line member
        obtain ⟨term, rfl⟩ := exists_term_of_mem member
        rw [term.trimmed.indentation_eq]
        simp
      have read := joinFragments_behind (first :: more) 0
      rw [show indent (spaces 0) (texts (first :: more)) = texts (first :: more) from
        List.map_id _] at read
      have first_line : texts (first :: more) = first.text :: texts more := rfl
      unfold returns Return.lines
      rw [flush.dedent_eq, first_line, List.dropWhile_cons, first.solid,
        if_neg Bool.false_ne_true]
      simp only [first.trimmed.trim_eq, divider, Text.splitOnce_eq_none undivided, level,
        Bool.false_eq_true, if_false, returnOf, ← first_line, read, Option.map_none]
      rfl

theorem returns_entries (entry : Option Return) :
    returns (dedent (entry.toList.flatMap Return.lines)) = entry.map Return.doc :=
  read_optional rfl returns_entry entry

/-! ### Sections -/

theorem isUnderline_hyphens (count : Nat) : isUnderline (List.replicate (count + 1) '-') = true := by
  have trimmed : Trimmed (List.replicate (count + 1) '-') := by
    constructor
    · intro character found
      rw [List.eq_of_mem_replicate (List.mem_of_mem_head? found)]
      decide
    · intro character found
      rw [List.eq_of_mem_replicate (List.mem_of_mem_getLast? found)]
      decide
  exact isUnderline_iff.mpr ⟨count, Or.inl trimmed.trim_eq⟩

theorem opens {topic : Topic} {title : String} {body : List Line} (count : Nat)
    (named : Topic.ofTitle title.toList = topic ∧ Trimmed title.toList ∧ Inner title.toList ∧
      title.toList ≠ [])
    (inner : ∀ line ∈ body, Inner line) : Opens .numpy topic (underlined title count) body := by
  obtain ⟨kind, trimmed, ⟨unbroken, plain⟩, nonempty⟩ := named
  have solid := trimmed.solid nonempty
  refine ⟨⟨title.toList, kind, ?_⟩, .of_mem List.mem_cons_self solid trimmed.indentation_eq, ?_⟩
  · have titled : isTitle title.toList (List.replicate (count + 1) '-') = true := by
      unfold isTitle
      rw [isUnderline_hyphens, solid, Bool.eq_false_iff.mpr fun rule =>
        plain (isUnderline_iff.mp rule)]
      rfl
    have plainBody := outline_of_plain fun line member => (inner line member).2
    show outline (title.toList :: List.replicate (count + 1) '-' :: body) = _
    rw [outline_cons_of_title titled, plainBody, trimmed.trim_eq]
  · intro line member
    rcases List.mem_cons.mp member with rfl | later
    · exact unbroken
    · rcases List.mem_cons.mp later with rfl | inBody
      · constructor
        · intro broken
          cases List.eq_of_mem_replicate broken
        · intro broken
          cases List.eq_of_mem_replicate broken
      · exact (inner line inBody).1

/-- A docstring written from its content says exactly this content. -/
theorem parse_underlined_content (content : Content) (gap : Topic → Gap) (width : Topic → Nat) :
    parse .numpy (String.ofList (Text.unlines (content.lines gap width))) =
      content.docstring := by
  have parameters : Opens .numpy .parameters (underlined "Parameters" (width .parameters))
      (content.parameters.flatMap Parameter.lines) := by
    refine opens _ (by decide) ?_
    intro line member
    obtain ⟨entry, _listed, present⟩ := List.mem_flatMap.mp member
    exact inner_entryLines ⟨entry.head.unbroken, entry.head_plain⟩ line present
  have returns : Opens .numpy .returns (underlined "Returns" (width .returns))
      (content.returns.toList.flatMap Return.lines) := by
    refine opens _ (by decide) ?_
    intro line member
    obtain ⟨entry, _listed, present⟩ := List.mem_flatMap.mp member
    exact entry.inner_lines line present
  have raises : Opens .numpy .raises (underlined "Raises" (width .raises))
      (content.raises.flatMap Raise.lines) := by
    refine opens _ (by decide) ?_
    intro line member
    obtain ⟨entry, _listed, present⟩ := List.mem_flatMap.mp member
    exact inner_entryLines entry.exception.inner line present
  unfold Content.lines Content.docstring
  rw [parse_titled rfl ⟨rfl, rfl, rfl⟩ content.description gap parameters returns raises,
    ← parameters_entries, ← returns_entries, ← raises_entries]
  rfl

def scaling : Content where
  description := { text := "Scale.\n\nParameters\n - - -".toList }
  parameters :=
    [{ name := { text := "values".toList }
       typeName := some { text := "list : of".toList }
       texts := [{ text := "a : b".toList }, { text := "Raises".toList }] },
      { name := { text := "-x".toList }, texts := [] }]
  returns := some (.typed { text := "a:b".toList } (by decide) { text := "Out".toList } [])
  raises := [{ exception := { text := "E : F".toList }, texts := [{ text := "never".toList }] }]

set_option maxRecDepth 4000 in
theorem parse_underlined_content_scaling :
    parse .numpy (String.ofList (Text.unlines
        (["Scale.", "", "Parameters", " - - -", "",
          "Parameters", "-", "values : list : of", "    a : b", "    Raises", "-x", "",
          "Returns", "--", "a:b", "    Out", "",
          "Raises", "-", "E : F", "    never"].map String.toList))) =
      { description := "Scale.\n\nParameters\n - - -"
        parameters := [⟨"values", some "list : of", "a : b Raises"⟩, ⟨"-x", none, ""⟩]
        returns := some ⟨some "a:b", "Out"⟩
        raises := [⟨"E : F", "never"⟩]
        examples := [] } :=
  parse_underlined_content scaling (fun _topic => {}) (fun topic => if topic = .returns then 1 else 0)

end DocHarvest.Docstring.Numpy
