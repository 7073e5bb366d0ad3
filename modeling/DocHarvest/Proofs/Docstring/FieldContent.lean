import DocHarvest.Proofs.Docstring.Content
import Mathlib.Data.List.Induction

/-!
Docstrings with field lists, written from their content.

Fields of all kinds may stand in any order.  What is said about a parameter and about the return
value is gathered from wherever it stands, and a type declared in a field of its own goes before
one that stands with the name.
-/

namespace DocHarvest.Docstring.FieldList

open Text (Line isBlankText indentation Unbroken Trimmed Unspaced)

/-! ### Content -/

structure Word where
  text : Line
  unspaced : Unspaced text := by decide
  free : ':' ∉ text := by decide

/-- A description of which no line after the first looks like a field. -/
structure Remark extends Passage where
  plain : ∀ text ∈ toPassage.continuations, ¬ FieldLine text := by decide

inductive Field where
  | parameter (inlineType : List Word) (name : Word) (description : Remark)
  | type (name : Word) (typeName : Label [])
  | returns (description : Remark)
  | returnType (typeName : Label [])
  | raises (exception : Word) (description : Remark)

def spelled (words : List Word) : List Line :=
  words.map fun word => word.text

/-- The words between the colons of a field. -/
def Field.key : Field → List Word
  | .parameter inlineType name _ => { text := "param".toList } :: (inlineType ++ [name])
  | .type name _ => [{ text := "type".toList }, name]
  | .returns _ => [{ text := "returns".toList }]
  | .returnType _ => [{ text := "rtype".toList }]
  | .raises exception _ => [{ text := "raises".toList }, exception]

def Remark.ofLabel (label : Label []) : Remark where
  opening := label.toPhrase
  plain := fun _text listed => absurd listed List.not_mem_nil

/-- What stands behind the colons of a field. -/
def Field.remark : Field → Remark
  | .parameter _ _ description => description
  | .type _ typeName => .ofLabel typeName
  | .returns description => description
  | .returnType typeName => .ofLabel typeName
  | .raises _ description => description

def Field.keyText (field : Field) : Line :=
  Text.join [' '] (spelled field.key)

def Field.lines (field : Field) : List Line :=
  (":".toList ++ field.keyText ++ ": ".toList ++ field.remark.opening.text) ::
    indent (spaces 4) field.remark.continuations

/-- A parameter as its own field describes it. -/
@[simp]
def Field.parameter? : Field → Option DocParameter
  | .parameter inlineType name description =>
      some
        { name := String.ofList name.text
          typeName :=
            if inlineType.isEmpty then none
            else some (String.ofList (Text.join [' '] (spelled inlineType)))
          description := description.text }
  | _ => none

/-- The name of a parameter and the type that is declared for it. -/
@[simp]
def Field.type? : Field → Option (String × String)
  | .type name typeName => some (String.ofList name.text, String.ofList typeName.text)
  | _ => none

@[simp]
def Field.returns? : Field → Option String
  | .returns description => some description.text
  | _ => none

@[simp]
def Field.returnType? : Field → Option String
  | .returnType typeName => some (String.ofList typeName.text)
  | _ => none

@[simp]
def Field.raises? : Field → Option DocRaise
  | .raises exception description =>
      some { exceptionType := String.ofList exception.text, description := description.text }
  | _ => none

/-- A description and fields in any order: no two parameters have one name, no parameter has two
declared types, and there is at most one return value and one type of it. -/
structure Content where
  description : Prose .rest
  fields : List Field
  named : ((fields.filterMap Field.parameter?).map DocParameter.name).Nodup := by decide
  declared : ((fields.filterMap Field.type?).map Prod.fst).Nodup := by decide
  returned : (fields.filterMap Field.returns?).length ≤ 1 := by decide
  typed : (fields.filterMap Field.returnType?).length ≤ 1 := by decide

def Content.lines (content : Content) (gap : Gap) : List Line :=
  content.description.lines ++ gap.lines ++ content.fields.flatMap Field.lines

/-- The parameters in the order of their fields, each with its declared type, or else with the type
that stands with its name. -/
def Content.parameters (content : Content) : List DocParameter :=
  (content.fields.filterMap Field.parameter?).map fun parameter =>
    { parameter with
      typeName := ((content.fields.filterMap Field.type?).lookup parameter.name).or
        parameter.typeName }

/-- The return value, if it is described or has a type. -/
def Content.returns (content : Content) : Option DocReturn :=
  match content.fields.findSome? Field.returns?, content.fields.findSome? Field.returnType? with
  | none, none => none
  | description, typeName => some { typeName, description := description.getD "" }

/-- What a docstring of this content says. -/
def Content.docstring (content : Content) : Docstring :=
  { description := String.ofList content.description.text
    parameters := content.parameters
    returns := content.returns
    raises := content.fields.filterMap Field.raises?
    examples := [] }

/-! ### Fields as sections -/

theorem unspaced_spelled (words : List Word) : ∀ text ∈ spelled words, Unspaced text := by
  intro text member
  obtain ⟨word, _listed, rfl⟩ := List.mem_map.mp member
  exact word.unspaced

theorem mem_join_spelled {words : List Word} {mark : Char} (other : mark ≠ ' ')
    (member : mark ∈ Text.join [' '] (spelled words)) : ∃ word : Word, mark ∈ word.text := by
  rcases Text.mem_join member with between | ⟨text, listed, inside⟩
  · exact absurd (List.mem_singleton.mp between) other
  · obtain ⟨word, _listed, rfl⟩ := List.mem_map.mp listed
    exact ⟨word, inside⟩

theorem trimmed_spelled (words : List Word) : Trimmed (Text.join [' '] (spelled words)) := by
  refine Text.trimmed_join ?_
  intro text member
  have unspaced := unspaced_spelled words text member
  exact ⟨unspaced.trimmed, unspaced.nonempty⟩

/-- The text between the colons as a label. -/
def Field.keyLabel (field : Field) : Label [':'] where
  text := field.keyText
  trimmed := trimmed_spelled field.key
  unbroken := by
    constructor
    · intro broken
      obtain ⟨word, inside⟩ := mem_join_spelled (by decide) broken
      cases word.unspaced.solid _ inside
    · intro broken
      obtain ⟨word, inside⟩ := mem_join_spelled (by decide) broken
      cases word.unspaced.solid _ inside
  nonempty := by
    cases field with
    | parameter => exact Text.join_ne_nil _ (List.cons_ne_nil _ _)
    | type => exact Text.join_ne_nil _ (List.cons_ne_nil _ _)
    | returns => exact Text.join_ne_nil _ (List.cons_ne_nil _ _)
    | returnType => exact Text.join_ne_nil _ (List.cons_ne_nil _ _)
    | raises => exact Text.join_ne_nil _ (List.cons_ne_nil _ _)
  free := by
    intro mark listed
    rw [List.mem_singleton.mp listed]
    intro member
    obtain ⟨word, inside⟩ := mem_join_spelled (by decide) member
    exact word.free inside

def Field.toSection (field : Field) : Section :=
  ⟨field.keyText, field.remark.opening.text :: indent (spaces 4) field.remark.continuations⟩

theorem field?_first (field : Field) :
    field? (":".toList ++ field.keyText ++ ": ".toList ++ field.remark.opening.text) =
      some (field.keyText, field.remark.opening.text) := by
  have stripped := trim_colon (":".toList ++ field.keyText)
    (List.cons_ne_nil _ _) (by intro character found; cases found; decide) field.remark.opening
  have key : Text.nonBlank field.keyText = some field.keyText :=
    field.keyLabel.trimmed.nonBlank_eq field.keyLabel.nonempty
  have colon : ':' ∉ field.keyText := field.keyLabel.free ':' List.mem_cons_self
  have shape (rest : Line) : ":".toList ++ field.keyText ++ rest =
      ':' :: (field.keyText ++ rest) := rfl
  unfold field?
  rw [stripped, shape]
  simp only [Text.splitOnce_mark colon, Option.bind_some, key, Option.map_some,
    Phrase.trim_after_colon]

theorem outline_fields (fields : List Field) :
    Docstring.outline .rest (fields.flatMap Field.lines) = ⟨[], fields.map Field.toSection⟩ := by
  have found : Text.groups field? (fields.flatMap Field.lines) = ([], fields.map fun field =>
      ((field.keyText, field.remark.opening.text),
        indent (spaces 4) field.remark.continuations)) := by
    refine groups_flatMap (fun field _member => field?_first field) ?_
    intro field _member line listed
    obtain ⟨text, continued, rfl⟩ := mem_indent.mp listed
    refine eq_none_of_not_isSome field?_isSome_iff ?_
    rintro ⟨key, rest, stripped, absent, solid⟩
    rw [Text.trim_blank_append (isBlankText_spaces 4)] at stripped
    exact field.remark.plain text continued ⟨key, rest, stripped, absent, solid⟩
  simp only [Docstring.outline, outline, found, List.map_map]
  rfl

/-! ### Reading fields -/

section AddField

variable {part : Section} {word name : Line} {arguments : List Line}

theorem addField_parameter (draft : Draft)
    (words : Text.words part.name = word :: (arguments ++ [name]))
    (topic : Topic.ofWord word = .parameter) :
    addField draft part =
      { draft with
        docstring :=
          { draft.docstring with
            parameters := draft.docstring.parameters ++
              [parameterOf name (Text.nonBlank (Text.join [' '] arguments)) part.lines] } } := by
  have last : (arguments ++ [name]).reverse = name :: arguments.reverse := by
    rw [List.reverse_append]
    rfl
  simp only [addField, words, topic, last, List.reverse_reverse]

theorem addField_type {typeName : Line} (draft : Draft)
    (words : Text.words part.name = word :: (arguments ++ [name]))
    (topic : Topic.ofWord word = .type)
    (said : Text.nonBlank (Text.joinFragments part.lines) = some typeName) :
    addField draft part =
      { draft with types := draft.types ++ [(String.ofList name, String.ofList typeName)] } := by
  have last : (arguments ++ [name]).reverse = name :: arguments.reverse := by
    rw [List.reverse_append]
    rfl
  simp only [addField, words, topic, last, said]

theorem addField_returns (draft : Draft) (words : Text.words part.name = word :: arguments)
    (topic : Topic.ofWord word = .returns) :
    addField draft part =
      { draft with
        docstring := { draft.docstring with returns := some (returnOf none part.lines) } } := by
  simp only [addField, words, topic]

theorem addField_returnType (draft : Draft) (words : Text.words part.name = word :: arguments)
    (topic : Topic.ofWord word = .returnType) :
    addField draft part =
      { draft with
        returnType :=
          (Text.nonBlank (Text.joinFragments part.lines)).map String.ofList } := by
  simp only [addField, words, topic]

theorem addField_raises (draft : Draft)
    (words : Text.words part.name = word :: (arguments ++ [name]))
    (topic : Topic.ofWord word = .raises) :
    addField draft part =
      { draft with
        docstring :=
          { draft.docstring with
            raises := draft.docstring.raises ++ [raiseOf name part.lines] } } := by
  have last : (arguments ++ [name]).reverse = name :: arguments.reverse := by
    rw [List.reverse_append]
    rfl
  simp only [addField, words, topic, last, List.headD_cons]

end AddField

theorem Remark.joinFragments_eq (remark : Remark) :
    String.ofList (Text.joinFragments
      (remark.opening.text :: indent (spaces 4) remark.continuations)) = remark.text :=
  remark.toPassage.joinFragments_eq 4 remark.opening.trimmed.trim_eq

theorem joinFragments_label (label : Label []) :
    Text.nonBlank (Text.joinFragments
      (label.text :: indent (spaces 4) (Remark.ofLabel label).continuations)) =
      some label.text := by
  have alone : Text.flow [label.text] = label.text := by
    unfold Text.flow
    rw [List.filter_cons_of_pos]
    · exact List.intercalate_singleton
    · rw [Bool.not_eq_true', List.isEmpty_eq_false_iff]
      exact label.nonempty
  show Text.nonBlank (Text.joinFragments [label.text]) = some label.text
  rw [Text.joinFragments_eq, List.map_singleton, label.trimmed.trim_eq, alone,
    label.trimmed.nonBlank_eq label.nonempty]

theorem nonBlank_inlineType (inlineType : List Word) :
    Text.nonBlank (Text.join [' '] (spelled inlineType)) =
      if inlineType.isEmpty then none else some (Text.join [' '] (spelled inlineType)) := by
  cases inlineType with
  | nil => rfl
  | cons word rest =>
      have trimmed := trimmed_spelled (word :: rest)
      have nonempty : Text.join [' '] (spelled (word :: rest)) ≠ [] :=
        Text.join_ne_nil _ word.unspaced.nonempty
      rw [trimmed.nonBlank_eq nonempty]
      rfl

/-- What a field adds to what the fields before it say. -/
theorem addField_field (draft : Draft) (field : Field) :
    addField draft field.toSection =
      { docstring :=
          { draft.docstring with
            parameters := draft.docstring.parameters ++ [field].filterMap Field.parameter?
            returns := (field.returns?.map (DocReturn.mk none)).or draft.docstring.returns
            raises := draft.docstring.raises ++ [field].filterMap Field.raises? }
        types := draft.types ++ [field].filterMap Field.type?
        returnType := field.returnType?.or draft.returnType } := by
  have words : Text.words field.toSection.name = spelled field.key :=
    Text.words_join (unspaced_spelled field.key)
  cases field with
  | parameter inlineType name remark =>
      have key : spelled (Field.parameter inlineType name remark).key =
          "param".toList :: (spelled inlineType ++ [name.text]) := by
        simp [spelled, Field.key]
      rw [addField_parameter draft (words.trans key) (by decide)]
      simp [Field.toSection, Field.remark, parameterOf, nonBlank_inlineType,
        remark.joinFragments_eq, apply_ite]
  | type name typeName =>
      have key : spelled (Field.type name typeName).key = "type".toList :: ([] ++ [name.text]) := rfl
      rw [addField_type draft (words.trans key) (by decide) (joinFragments_label typeName)]
      simp [List.filterMap_cons]
  | returns remark =>
      rw [addField_returns draft words (by decide)]
      simp [Field.toSection, Field.remark, returnOf, remark.joinFragments_eq]
  | returnType typeName =>
      have said : Text.nonBlank
          (Text.joinFragments (Field.returnType typeName).toSection.lines) =
          some typeName.text := joinFragments_label typeName
      rw [addField_returnType draft words (by decide), said]
      simp [List.filterMap_cons]
  | raises exception remark =>
      have key : spelled (Field.raises exception remark).key =
          "raises".toList :: ([] ++ [exception.text]) := rfl
      rw [addField_raises draft (words.trans key) (by decide)]
      simp [Field.toSection, Field.remark, raiseOf, remark.joinFragments_eq]

theorem or_findSome?_of_once {α β : Type} {f : α → Option β} {list : List α} {last : α}
    (once : ((list ++ [last]).filterMap f).length ≤ 1) :
    (f last).or (list.findSome? f) = (list ++ [last]).findSome? f := by
  rw [List.findSome?_append, List.findSome?_singleton]
  rw [List.filterMap_append, List.length_append] at once
  cases here : f last with
  | none => rw [Option.or_none, Option.none_or]
  | some found =>
      rw [List.filterMap_cons_some here, List.length_cons] at once
      have nothing : list.filterMap f = [] := List.length_eq_zero_iff.mp (by omega)
      have before : list.findSome? f = none := by
        rw [← List.head?_filterMap, nothing]
        rfl
      rw [before]
      rfl

/-- What a run over fields gathers. -/
theorem foldl_addField (description : String) {fields : List Field}
    (returned : (fields.filterMap Field.returns?).length ≤ 1)
    (typed : (fields.filterMap Field.returnType?).length ≤ 1) :
    (fields.map Field.toSection).foldl addField ⟨{ empty with description }, [], none⟩ =
      { docstring :=
          { description
            parameters := fields.filterMap Field.parameter?
            returns := (fields.findSome? Field.returns?).map (DocReturn.mk none)
            raises := fields.filterMap Field.raises?
            examples := [] }
        types := fields.filterMap Field.type?
        returnType := fields.findSome? Field.returnType? } := by
  -- from the end, since each field adds to what the fields before it have left
  induction fields using List.reverseRecOn with
  | nil => rfl
  | append_singleton rest field ih =>
      have fewer {β : Type} {f : Field → Option β}
          (once : ((rest ++ [field]).filterMap f).length ≤ 1) :
          (rest.filterMap f).length ≤ 1 := by
        rw [List.filterMap_append, List.length_append] at once
        omega
      rw [List.map_append, List.foldl_append, ih (fewer returned) (fewer typed), List.map_singleton,
        List.foldl_cons, List.foldl_nil, addField_field]
      simp only [List.filterMap_append, ← or_findSome?_of_once returned,
        ← or_findSome?_of_once typed, Option.map_or]

/-! ### Types apart from what they describe -/

theorem attachType_names (parameters : List DocParameter) (name typeName : String) :
    (attachType parameters name typeName).map DocParameter.name =
      parameters.map DocParameter.name := by
  fun_induction attachType parameters name typeName with
  | case1 => rfl
  | case2 parameter rest same => rfl
  | case3 parameter rest other ih => rw [List.map_cons, List.map_cons, ih]

theorem attachType_eq {parameters : List DocParameter}
    (named : (parameters.map DocParameter.name).Nodup) (name typeName : String) :
    attachType parameters name typeName =
      parameters.map fun parameter =>
        if parameter.name == name then parameter.withType typeName else parameter := by
  fun_induction attachType parameters name typeName with
  | case1 => rfl
  | case2 parameter rest same =>
      rw [List.map_cons, List.nodup_cons] at named
      have others : ∀ other ∈ rest, ¬ (other.name == name) = true := by
        intro other member clash
        rw [eq_of_beq same, ← eq_of_beq clash] at named
        exact named.1 (List.mem_map_of_mem member)
      rw [List.map_cons, if_pos same]
      congr 1
      conv => lhs; rw [← List.map_id rest]
      refine List.map_congr_left ?_
      intro other member
      rw [if_neg (others other member)]
      rfl
  | case3 parameter rest other ih =>
      rw [List.map_cons, List.nodup_cons] at named
      rw [List.map_cons, if_neg other, ih named.2]

/-- Each parameter gets its declared type, and keeps the one it has if none is declared. -/
theorem foldl_attachType {types : List (String × String)} {parameters : List DocParameter}
    (named : (parameters.map DocParameter.name).Nodup) (declared : (types.map Prod.fst).Nodup) :
    types.foldl (fun parameters (name, typeName) => attachType parameters name typeName)
        parameters =
      parameters.map fun parameter =>
        { parameter with typeName := (types.lookup parameter.name).or parameter.typeName } := by
  induction types generalizing parameters with
  | nil => exact (List.map_id _).symm
  | cons pair rest ih =>
      obtain ⟨name, typeName⟩ := pair
      rw [List.map_cons, List.nodup_cons] at declared
      have still : ((attachType parameters name typeName).map DocParameter.name).Nodup := by
        rw [attachType_names]
        exact named
      rw [List.foldl_cons, ih still declared.2, attachType_eq named, List.map_map]
      refine List.map_congr_left ?_
      intro parameter _member
      rw [Function.comp_apply, List.lookup_cons]
      cases same : parameter.name == name with
      | false => rfl
      | true =>
          -- no other declaration of this name follows
          have last : rest.lookup name = none := by
            refine List.lookup_eq_none_iff.mpr ?_
            intro later member
            rw [bne_iff_ne]
            rintro rfl
            exact declared.1 (List.mem_map.mpr ⟨later, member, rfl⟩)
          rw [if_pos rfl]
          simp only [DocParameter.withType, eq_of_beq same, last]
          rfl

theorem finish_foldl_addField (content : Content) :
    ((content.fields.map Field.toSection).foldl addField
        ⟨{ empty with description := String.ofList content.description.text }, [], none⟩).finish =
      content.docstring := by
  rw [foldl_addField _ content.returned content.typed]
  unfold Draft.finish
  simp only [foldl_attachType content.named content.declared]
  unfold Content.docstring Content.parameters Content.returns
  cases content.fields.findSome? Field.returnType? with
  | none =>
      cases content.fields.findSome? Field.returns? with
      | none => rfl
      | some description => rfl
  | some typeName =>
      cases content.fields.findSome? Field.returns? with
      | none => rfl
      | some description => rfl

/-! ### The whole docstring -/

theorem ofLines_fields (content : Content) (gap : Gap) :
    ofLines .rest (content.lines gap) = content.docstring := by
  have plain : ∀ line ∈ content.description.lines ++ gap.lines, ¬ Boundary .rest line := by
    intro line member
    rcases List.mem_append.mp member with inProse | inGap
    · exact content.description.free line inProse
    · intro boundary
      have found := field?_isSome_iff.mpr boundary
      rw [field?_of_blank line (List.all_eq_true.mp gap.blank line inGap)] at found
      cases found
  have opened := congrArg Outline.description (outline_fields content.fields)
  unfold ofLines Content.lines
  rw [outline_append .rest _ opened, outline_of_plain .rest plain, outline_fields]
  dsimp only
  rw [Text.trim_unlines_append_blank gap.blank]
  unfold Prose.lines
  rw [content.description.trimmed.unlines_lines content.description.plain,
    content.description.trimmed.trim_eq, List.nil_append]
  exact finish_foldl_addField content

theorem Field.unbroken_lines (field : Field) : ∀ line ∈ field.lines, Unbroken line := by
  intro line member
  rcases List.mem_cons.mp member with rfl | continued
  · have colon : Unbroken ":".toList := by decide
    have divider : Unbroken ": ".toList := by decide
    exact ((colon.append field.keyLabel.unbroken).append divider).append
      field.remark.opening.unbroken
  · exact unbroken_indent field.remark.unbroken_continuations 4 line continued

theorem Field.flush_lines (field : Field) : Flush field.lines :=
  .of_mem List.mem_cons_self rfl rfl

theorem flush_fields (fields : List Field) : Flush (fields.flatMap Field.lines) := by
  induction fields with
  | nil => exact .of_blank rfl
  | cons field rest ih => exact field.flush_lines.append ih

/-- A docstring written from its content, with its fields in any order, says exactly this
content. -/
theorem parse_field_content (content : Content) (gap : Gap) :
    parse .rest (String.ofList (Text.unlines (content.lines gap))) = content.docstring := by
  have flush : Flush (content.lines gap) :=
    (content.description.flush.append (.of_blank gap.blank)).append (flush_fields content.fields)
  rw [flush.parse_unlines .rest]
  · exact ofLines_fields content gap
  · intro line member
    rcases List.mem_append.mp member with inFront | inFields
    · rcases List.mem_append.mp inFront with inProse | inGap
      · exact content.description.unbroken line inProse
      · exact gap.unbroken line inGap
    · obtain ⟨field, _listed, present⟩ := List.mem_flatMap.mp inFields
      exact field.unbroken_lines line present

def connection : Content where
  description := { text := "Open.\n\n:not a field".toList }
  fields :=
    [.returnType { text := "Link: raw".toList },
      .type { text := "port".toList } { text := "int".toList },
      .parameter [{ text := "str".toList }, { text := "None".toList }] { text := "host".toList }
        { opening := { text := "where: here".toList }
          more := [{ text := ":type host".toList }] },
      .raises { text := "OSError".toList } { opening := { text := "late".toList } },
      .parameter [{ text := "float".toList }] { text := "port".toList }
        { opening := .empty, more := [{ text := "which".toList }] },
      .returns { opening := { text := "a link".toList } }]

set_option maxRecDepth 4000 in
theorem parse_field_content_connection :
    parse .rest (String.ofList (Text.unlines
        (["Open.", "", ":not a field", "",
          ":rtype: Link: raw",
          ":type port: int",
          ":param str None host: where: here", "    :type host",
          ":raises OSError: late",
          ":param float port: ", "    which",
          ":returns: a link"].map String.toList))) =
      { description := "Open.\n\n:not a field"
        parameters :=
          [⟨"host", some "str None", "where: here :type host"⟩, ⟨"port", some "int", "which"⟩]
        returns := some ⟨some "Link: raw", "a link"⟩
        raises := [⟨"OSError", "late"⟩]
        examples := [] } :=
  parse_field_content connection {}

end DocHarvest.Docstring.FieldList
