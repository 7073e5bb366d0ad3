import DocHarvest.Proofs.Docstring.Composition

/-!
The normal form of what a docstring says.

However odd a docstring is, what is read from it is tidy: names, types and descriptions stay on one
line without blanks at their ends, a type that is there says something, and example code has no
blank line.  Lines have lost their newlines when they are read, and each way to cut, strip or join
them keeps it so.
-/

namespace DocHarvest

open Text (Line isBlankText Trimmed Unspaced)

/-! ### Normal forms -/

/-- One line without blanks at its ends. -/
structure Tidy (text : Line) : Prop where
  trimmed : Trimmed text
  single : '\n' ∉ text

structure Stated (text : Line) : Prop extends Tidy text where
  nonempty : text ≠ []

structure DocParameter.Normal (style : Style) (parameter : DocParameter) : Prop where
  name : Tidy parameter.name.toList
  -- an entry under a header may have nothing before its colon
  named : style ≠ .google → parameter.name ≠ ""
  typeName : ∀ text ∈ parameter.typeName, Stated text.toList
  description : Tidy parameter.description.toList

structure DocReturn.Normal (entry : DocReturn) : Prop where
  typeName : ∀ text ∈ entry.typeName, Stated text.toList
  description : Tidy entry.description.toList

structure DocRaise.Normal (entry : DocRaise) : Prop where
  exceptionType : Tidy entry.exceptionType.toList
  description : Tidy entry.description.toList

/-- Some text of which no line is blank. -/
structure Code (text : String) : Prop where
  nonempty : text ≠ ""
  solid : ∀ line ∈ text.toList.splitOn '\n', isBlankText line = false

structure Docstring.Normal (style : Style) (docstring : Docstring) : Prop where
  description : Trimmed docstring.description.toList
  parameters : ∀ parameter ∈ docstring.parameters, parameter.Normal style
  returns : ∀ entry ∈ docstring.returns, entry.Normal
  raises : ∀ entry ∈ docstring.raises, entry.Normal
  examples : ∀ text ∈ docstring.examples, Code text

namespace Docstring

/-- Lines without newlines, as those are that a text is cut into. -/
def NewlineFree (lines : List Line) : Prop :=
  ∀ line ∈ lines, '\n' ∉ line

/-! ### Cut, stripped and joined texts -/

theorem tidy_trim {text : Line} (single : '\n' ∉ text) : Tidy (Text.trim text) where
  trimmed := Text.trimmed_trim text
  single := fun broken => single ((Text.trim_sublist text).subset broken)

theorem stated_of_nonBlank {text : Line} (single : '\n' ∉ text) :
    ∀ found ∈ Text.nonBlank text, Stated found := by
  intro found kept
  obtain ⟨rfl, nonempty⟩ := Text.nonBlank_eq_some.mp kept
  exact ⟨tidy_trim single, nonempty⟩

theorem stated_of_none : ∀ text ∈ (none : Option Line), Stated text :=
  fun _text none => absurd none (Option.not_mem_none _)

theorem stated_of_unspaced {text : Line} (unspaced : Unspaced text) : Stated text where
  trimmed := unspaced.trimmed
  single := by
    intro broken
    cases unspaced.solid _ broken
  nonempty := unspaced.nonempty

theorem newlineFree_of_splitOnce {separator text before after : Line} (single : '\n' ∉ text)
    (cut : Text.splitOnce separator text = some (before, after)) :
    '\n' ∉ before ∧ '\n' ∉ after := by
  rw [Text.splitOnce_eq_some cut, List.mem_append, List.mem_append, not_or, not_or] at single
  exact ⟨single.1.1, single.2⟩

theorem single_join {pieces : List Line} (free : NewlineFree pieces) :
    '\n' ∉ Text.join [' '] pieces := by
  intro broken
  rcases Text.mem_join broken with between | ⟨piece, listed, inside⟩
  · cases List.mem_singleton.mp between
  · exact free piece listed inside

theorem tidy_joinFragments {fragments : List Line} (free : NewlineFree fragments) :
    Tidy (Text.joinFragments fragments) where
  trimmed := by
    rw [Text.joinFragments_eq]
    refine Text.trimmed_flow ?_
    intro text member
    obtain ⟨fragment, _listed, rfl⟩ := List.mem_map.mp member
    exact Text.trimmed_trim fragment
  single := by
    refine single_join ?_
    intro piece member
    obtain ⟨fragment, listed, kept⟩ := List.mem_filterMap.mp member
    exact (stated_of_nonBlank (free fragment listed) piece kept).single

theorem newlineFree_lines (text : List Char) : NewlineFree (Text.lines text) := by
  intro line listed broken
  rcases Text.mem_linesFrom listed broken with impossible | ⟨_present, other⟩
  · cases impossible
  · exact other rfl

theorem NewlineFree.cons {line : Line} {lines : List Line} (free : NewlineFree lines)
    (single : '\n' ∉ line) : NewlineFree (line :: lines) :=
  List.forall_mem_cons.mpr ⟨single, free⟩

theorem NewlineFree.dropBlank {lines : List Line} (free : NewlineFree lines) :
    NewlineFree (lines.dropWhile isBlankText) :=
  fun line inside => free line ((List.dropWhile_sublist _).subset inside)

theorem NewlineFree.dedent {lines : List Line} (free : NewlineFree lines) :
    NewlineFree (dedent lines) := by
  intro line member broken
  obtain ⟨whole, listed, rfl⟩ := List.mem_map.mp member
  exact free whole listed (List.mem_of_mem_drop broken)

/-! ### Entries -/

theorem stated_ofList {typeName : Option Line} (typed : ∀ text ∈ typeName, Stated text) :
    ∀ text ∈ typeName.map String.ofList, Stated text.toList := by
  intro text found
  obtain ⟨characters, present, rfl⟩ := Option.map_eq_some_iff.mp found
  rw [String.toList_ofList]
  exact typed characters present

theorem tidy_description {fragments : List Line} (free : NewlineFree fragments) :
    Tidy (String.ofList (Text.joinFragments fragments)).toList := by
  rw [String.toList_ofList]
  exact tidy_joinFragments free

theorem normal_parameterOf {style : Style} {name : Line} {typeName : Option Line}
    {fragments : List Line} (tidy : Tidy name) (named : style ≠ .google → name ≠ [])
    (typed : ∀ text ∈ typeName, Stated text) (free : NewlineFree fragments) :
    (parameterOf name typeName fragments).Normal style where
  name := by
    unfold parameterOf
    rw [String.toList_ofList]
    exact tidy
  named := fun other nothing => named other (String.ofList_eq_empty_iff.mp nothing)
  typeName := stated_ofList typed
  description := tidy_description free

theorem normal_returnOf {typeName : Option Line} {fragments : List Line}
    (typed : ∀ text ∈ typeName, Stated text) (free : NewlineFree fragments) :
    (returnOf typeName fragments).Normal where
  typeName := stated_ofList typed
  description := tidy_description free

theorem normal_raiseOf {name : Line} {fragments : List Line} (tidy : Tidy name)
    (free : NewlineFree fragments) : (raiseOf name fragments).Normal where
  exceptionType := by
    unfold raiseOf
    rw [String.toList_ofList]
    exact tidy
  description := tidy_description free

/-! ### Groups and sections -/

theorem NewlineFree.groups {α : Type} {head : Line → Option α} {lines : List Line}
    (free : NewlineFree lines) :
    NewlineFree (Text.groups head lines).1 ∧
      ∀ group ∈ (Text.groups head lines).2,
        (∃ line, '\n' ∉ line ∧ head line = some group.1) ∧ NewlineFree group.2 := by
  induction lines with
  | nil => exact ⟨List.forall_mem_nil _, List.forall_mem_nil _⟩
  | cons line rest ih =>
      obtain ⟨here, later⟩ := List.forall_mem_cons.mp free
      obtain ⟨before, found⟩ := ih later
      cases taken : head line with
      | none =>
          rw [groups_cons_none taken]
          exact ⟨before.cons here, found⟩
      | some accepted =>
          rw [groups_cons_some taken]
          refine ⟨List.forall_mem_nil _, List.forall_mem_cons.mpr ⟨?_, found⟩⟩
          exact ⟨⟨line, here, taken⟩, before⟩

theorem Numpy.newlineFree_outline {lines : List Line} (free : NewlineFree lines) :
    NewlineFree (outline lines).description ∧
      ∀ part ∈ (outline lines).sections, NewlineFree part.lines := by
  fun_induction outline lines with
  | case1 => exact ⟨free, List.forall_mem_nil _⟩
  | case2 line => exact ⟨free, List.forall_mem_nil _⟩
  | case3 line next rest _title after ih =>
      obtain ⟨before, found⟩ := ih
        (List.forall_mem_cons.mp (List.forall_mem_cons.mp free).2).2
      exact ⟨List.forall_mem_nil _, List.forall_mem_cons.mpr ⟨before, found⟩⟩
  | case4 line next rest _plain after ih =>
      obtain ⟨here, later⟩ := List.forall_mem_cons.mp free
      obtain ⟨before, found⟩ := ih later
      exact ⟨before.cons here, found⟩

theorem FieldList.single_of_field? {line key text : Line} (single : '\n' ∉ line)
    (found : field? line = some (key, text)) : '\n' ∉ text := by
  unfold field? at found
  split at found
  · next rest stripped =>
      obtain ⟨⟨before, after⟩, cut, kept⟩ := Option.bind_eq_some_iff.mp found
      obtain ⟨_key, _nonBlank, same⟩ := Option.map_eq_some_iff.mp kept
      cases same
      have whole := (tidy_trim single).single
      rw [stripped, List.mem_cons, not_or] at whole
      exact (tidy_trim (newlineFree_of_splitOnce whole.2 cut).2).single
  · cases found

/-- No part of a docstring has newlines left in its lines. -/
theorem newlineFree_outline (style : Style) {lines : List Line} (free : NewlineFree lines) :
    ∀ part ∈ (outline style lines).sections, NewlineFree part.lines := by
  intro part member
  cases style with
  | google =>
      obtain ⟨group, listed, rfl⟩ := List.mem_map.mp member
      exact (free.groups.2 group listed).2
  | numpy => exact (Numpy.newlineFree_outline free).2 part member
  | rest =>
      obtain ⟨⟨⟨key, text⟩, body⟩, listed, rfl⟩ := List.mem_map.mp member
      obtain ⟨⟨line, single, opened⟩, after⟩ := free.groups.2 _ listed
      exact after.cons (FieldList.single_of_field? single opened)

/-! ### Examples -/

theorem solid_of_isCodeLine {afterCode : Bool} {line : Line}
    (code : isCodeLine afterCode line = true) : isBlankText line = false := by
  rw [← Bool.not_eq_true]
  intro blank
  rw [isCodeLine_of_blank afterCode blank] at code
  cases code

/-- A line that example code may be made of. -/
def CodeLine (line : Line) : Prop :=
  isBlankText line = false ∧ '\n' ∉ line

/-- Whatever run is under way, only lines of code are gathered, and no empty block. -/
theorem codeRunsFrom_lines {run lines : List Line} (free : NewlineFree lines)
    (started : ∀ line ∈ run, CodeLine line) :
    ∀ block ∈ codeRunsFrom run lines, block ≠ [] ∧ ∀ line ∈ block, CodeLine line := by
  -- a run is kept backwards until a line ends it
  have finished {run : List Line} (some : ¬ run.isEmpty = true)
      (started : ∀ line ∈ run, CodeLine line) :
      run.reverse ≠ [] ∧ ∀ line ∈ run.reverse, CodeLine line := by
    rw [List.isEmpty_iff] at some
    refine ⟨fun nothing => some (List.reverse_eq_nil_iff.mp nothing), ?_⟩
    exact fun line member => started line (List.mem_reverse.mp member)
  fun_induction codeRunsFrom run lines with
  | case1 run => exact List.forall_mem_nil _
  | case2 run some =>
      intro block member
      rw [List.mem_singleton.mp member]
      exact finished some started
  | case3 run line rest code ih =>
      obtain ⟨here, later⟩ := List.forall_mem_cons.mp free
      exact ih later (List.forall_mem_cons.mpr ⟨⟨solid_of_isCodeLine code, here⟩, started⟩)
  | case4 run line rest _other _none ih =>
      exact ih (List.forall_mem_cons.mp free).2 (List.forall_mem_nil _)
  | case5 run line rest _other some ih =>
      intro block member
      rcases List.mem_cons.mp member with rfl | listed
      · exact finished some started
      · exact ih (List.forall_mem_cons.mp free).2 (List.forall_mem_nil _) block listed

theorem code_exampleBlocks {lines : List Line} (free : NewlineFree lines) :
    ∀ text ∈ exampleBlocks lines, Code text := by
  intro text member
  obtain ⟨block, listed, rfl⟩ := List.mem_map.mp member
  obtain ⟨nonempty, code⟩ := codeRunsFrom_lines free (List.forall_mem_nil _) block listed
  have split : (Text.unlines block).splitOn '\n' = block :=
    List.splitOn_intercalate '\n' (fun line inside => (code line inside).2) nonempty
  constructor
  · intro nothing
    obtain ⟨line, rest, rfl⟩ := List.exists_cons_of_ne_nil nonempty
    have line_ne : line ≠ [] := by
      rintro rfl
      cases (code [] List.mem_cons_self).1
    exact Text.join_ne_nil rest line_ne (String.ofList_eq_empty_iff.mp nothing)
  · rw [String.toList_ofList, split]
    exact fun line inside => (code line inside).1

/-! ### Sections under titles -/

/-- What a titled convention reads from lines without newlines is in normal form. -/
structure Topics.Normal (style : Style) (topics : Topics) : Prop where
  parameters : ∀ body, NewlineFree body →
    ∀ parameter ∈ topics.parameters body, parameter.Normal style
  returns : ∀ body, NewlineFree body → ∀ entry ∈ topics.returns body, entry.Normal
  raises : ∀ body, NewlineFree body → ∀ entry ∈ topics.raises body, entry.Normal

theorem addSection_normal {style : Style} {topics : Topics} {docstring : Docstring}
    {part : Section} (reader : topics.Normal style) (normal : docstring.Normal style)
    (free : NewlineFree part.lines) : (addSection topics docstring part).Normal style := by
  have body := free.dedent
  unfold addSection
  cases Topic.ofTitle part.name with
  | parameters =>
      exact { normal with
        parameters := List.forall_mem_append.mpr
          ⟨normal.parameters, reader.parameters _ body⟩ }
  | returns =>
      refine { normal with returns := ?_ }
      intro entry found
      rcases Option.or_eq_some_iff.mp found with new | ⟨_none, old⟩
      · exact reader.returns _ body entry new
      · exact normal.returns entry old
  | raises =>
      exact { normal with
        raises := List.forall_mem_append.mpr ⟨normal.raises, reader.raises _ body⟩ }
  | examples =>
      exact { normal with
        examples := List.forall_mem_append.mpr ⟨normal.examples, code_exampleBlocks body⟩ }
  | other => exact normal

theorem addSections_normal {style : Style} {topics : Topics} {docstring : Docstring}
    {parts : List Section} (reader : topics.Normal style) (normal : docstring.Normal style)
    (free : ∀ part ∈ parts, NewlineFree part.lines) :
    (addSections topics docstring parts).Normal style :=
  List.foldlRecOn parts (addSection topics) normal
    fun _docstring known part listed => addSection_normal reader known (free part listed)

namespace Google

theorem nameAndType_tidy {head : Line} (tidy : Tidy head) :
    Tidy (nameAndType head).1 ∧ ∀ text ∈ (nameAndType head).2, Stated text := by
  unfold nameAndType
  extract_lets typed
  cases found : typed with
  | none => exact ⟨tidy, stated_of_none⟩
  | some parts =>
      obtain ⟨inner, closed, rest⟩ := Option.bind_eq_some_iff.mp found
      obtain ⟨⟨before, after⟩, cut, last⟩ := Option.bind_eq_some_iff.mp rest
      obtain ⟨name, kept, rfl⟩ := Option.map_eq_some_iff.mp last
      have single : '\n' ∉ inner := by
        intro broken
        refine tidy.single ?_
        rw [Text.withoutLast_eq_some.mp closed]
        exact List.mem_append_left _ broken
      obtain ⟨first, second⟩ := newlineFree_of_splitOnce single cut
      exact ⟨(stated_of_nonBlank first name kept).toTidy, stated_of_nonBlank second⟩

theorem parameters_normal {body : List Line} (free : NewlineFree body) :
    ∀ parameter ∈ parameters body, parameter.Normal .google := by
  intro parameter member
  obtain ⟨⟨⟨head, text⟩, more⟩, listed, rfl⟩ := List.mem_map.mp member
  obtain ⟨⟨line, single, opened⟩, after⟩ := free.groups.2 _ listed
  unfold parameterHead? at opened
  split at opened
  · cases opened
  · obtain ⟨first, second⟩ := newlineFree_of_splitOnce (tidy_trim single).single opened
    obtain ⟨name, typed⟩ := nameAndType_tidy (tidy_trim first)
    exact normal_parameterOf name (fun other => absurd rfl other) typed (after.cons second)

theorem returns_normal {body : List Line} (free : NewlineFree body) :
    ∀ entry ∈ returns body, entry.Normal := by
  intro entry found
  have kept := free.dropBlank
  unfold returns at found
  split at found
  · cases found
  · next first rest listed =>
      rw [listed] at kept
      obtain ⟨here, later⟩ := List.forall_mem_cons.mp kept
      split at found
      · next typeName text cut =>
          cases found
          obtain ⟨before, after⟩ := newlineFree_of_splitOnce (tidy_trim here).single cut
          exact normal_returnOf (stated_of_nonBlank before) (NewlineFree.cons later after)
      · cases found
        exact normal_returnOf stated_of_none kept

theorem raises_normal {body : List Line} (free : NewlineFree body) :
    ∀ entry ∈ raises body, entry.Normal := by
  intro entry member
  obtain ⟨⟨⟨exception, text⟩, more⟩, listed, rfl⟩ := List.mem_map.mp member
  obtain ⟨⟨line, single, opened⟩, after⟩ := free.groups.2 _ listed
  have tidy := tidy_trim single
  unfold raiseHead? at opened
  split at opened
  · cases opened
  · split at opened
    · next before rest cut =>
        cases opened
        obtain ⟨first, second⟩ := newlineFree_of_splitOnce tidy.single cut
        exact normal_raiseOf (tidy_trim first) (after.cons second)
    · cases opened
      exact normal_raiseOf tidy after

theorem topics_normal : topics.Normal .google where
  parameters := fun _body => parameters_normal
  returns := fun _body => returns_normal
  raises := fun _body => raises_normal

end Google

namespace Numpy

theorem stated_of_entryHead? {line head : Line} (single : '\n' ∉ line)
    (opened : entryHead? line = some head) : Stated head := by
  unfold entryHead? at opened
  split at opened
  · cases opened
  · next solid =>
      cases opened
      rw [Bool.or_eq_true, not_or, Bool.not_eq_true] at solid
      exact stated_of_nonBlank single _ (Text.nonBlank_of_solid solid.1)

/-- Something stands before the divider in the line of an entry. -/
theorem solid_of_divided {head name typeName : Line} (trimmed : Trimmed head)
    (cut : Text.splitOnce divider head = some (name, typeName)) : isBlankText name = false := by
  have whole := Text.splitOnce_eq_some cut
  cases name with
  | nil =>
      -- the divider itself begins with a blank
      have solid := trimmed.first ' ' (by rw [whole]; rfl)
      cases solid
  | cons character rest =>
      have solid := trimmed.first character (by rw [whole]; rfl)
      rw [Text.isBlankText_cons, solid, Bool.false_and]

theorem parameters_normal {body : List Line} (free : NewlineFree body) :
    ∀ parameter ∈ parameters body, parameter.Normal .numpy := by
  intro parameter member
  obtain ⟨⟨head, more⟩, listed, rfl⟩ := List.mem_map.mp member
  obtain ⟨⟨line, single, opened⟩, after⟩ := free.groups.2 _ listed
  have stated := stated_of_entryHead? single opened
  dsimp only
  split
  · next name typeName cut =>
      obtain ⟨first, second⟩ := newlineFree_of_splitOnce stated.single cut
      have kept := Text.nonBlank_of_solid (solid_of_divided stated.trimmed cut)
      have named := stated_of_nonBlank first _ kept
      exact normal_parameterOf named.toTidy (fun _other => named.nonempty)
        (stated_of_nonBlank second) after
  · exact normal_parameterOf stated.toTidy (fun _other => stated.nonempty) stated_of_none after

theorem returns_normal {body : List Line} (free : NewlineFree body) :
    ∀ entry ∈ returns body, entry.Normal := by
  intro entry found
  have kept := free.dropBlank
  unfold returns at found
  split at found
  · cases found
  · next first rest listed =>
      have solid : isBlankText first = false := by
        have dropped := List.head?_dropWhile_not isBlankText body
        rw [listed] at dropped
        exact dropped
      rw [listed] at kept
      obtain ⟨here, later⟩ := List.forall_mem_cons.mp kept
      split at found
      · next typeName cut =>
          cases found
          have single := (newlineFree_of_splitOnce (tidy_trim here).single cut).2
          exact normal_returnOf (stated_of_nonBlank single) later
      · split at found
        · cases found
          refine normal_returnOf ?_ later
          intro text same
          cases same
          exact stated_of_nonBlank here _ (Text.nonBlank_of_solid solid)
        · cases found
          exact normal_returnOf stated_of_none kept

theorem raises_normal {body : List Line} (free : NewlineFree body) :
    ∀ entry ∈ raises body, entry.Normal := by
  intro entry member
  obtain ⟨⟨head, more⟩, listed, rfl⟩ := List.mem_map.mp member
  obtain ⟨⟨line, single, opened⟩, after⟩ := free.groups.2 _ listed
  exact normal_raiseOf (stated_of_entryHead? single opened).toTidy after

theorem topics_normal : topics.Normal .numpy where
  parameters := fun _body => parameters_normal
  returns := fun _body => returns_normal
  raises := fun _body => raises_normal

end Numpy

/-! ### Fields -/

namespace FieldList

structure Draft.Normal (draft : Draft) : Prop where
  docstring : draft.docstring.Normal .rest
  types : ∀ pair ∈ draft.types, Stated pair.2.toList
  returnType : ∀ text ∈ draft.returnType, Stated text.toList

/-- One field keeps a draft in normal form. -/
theorem addField_normal {draft : Draft} {part : Section} (normal : draft.Normal)
    (free : NewlineFree part.lines) : (addField draft part).Normal := by
  have described := tidy_joinFragments free
  have known := normal.docstring
  have unspaced := Text.unspaced_words part.name
  unfold addField
  cases listed : Text.words part.name with
  | nil => exact normal
  | cons word arguments =>
      rw [listed] at unspaced
      -- arguments are read from the end: the name comes last, what is before it is a type
      have spoken : ∀ argument ∈ arguments.reverse, Unspaced argument := fun argument member =>
        unspaced argument (List.mem_cons_of_mem _ (List.mem_reverse.mp member))
      dsimp only
      cases Topic.ofWord word with
      | parameter =>
          dsimp only
          split
          · exact normal
          · next name before backwards =>
              rw [backwards] at spoken
              obtain ⟨named, inline⟩ := List.forall_mem_cons.mp spoken
              have stated := stated_of_unspaced named
              have single : '\n' ∉ Text.join [' '] before.reverse := single_join
                fun piece member =>
                  (stated_of_unspaced (inline piece (List.mem_reverse.mp member))).single
              refine { normal with docstring := { known with parameters := ?_ } }
              refine List.forall_mem_append.mpr
                ⟨known.parameters, List.forall_mem_singleton.mpr ?_⟩
              exact normal_parameterOf stated.toTidy (fun _other => stated.nonempty)
                (stated_of_nonBlank single) free
      | type =>
          dsimp only
          split
          · next name _before typeName _backwards said =>
              refine { normal with types := ?_ }
              refine List.forall_mem_append.mpr ⟨normal.types, List.forall_mem_singleton.mpr ?_⟩
              rw [String.toList_ofList]
              exact stated_of_nonBlank described.single typeName said
          · exact normal
      | returns =>
          refine { normal with docstring := { known with returns := ?_ } }
          rintro entry ⟨⟩
          exact normal_returnOf stated_of_none free
      | returnType =>
          exact { normal with
            returnType := stated_ofList (stated_of_nonBlank described.single) }
      | raises =>
          have tidy : Tidy (arguments.reverse.headD []) := by
            cases backwards : arguments.reverse with
            | nil => exact ⟨Text.trimmed_nil, List.not_mem_nil⟩
            | cons exception before =>
                rw [backwards] at spoken
                exact (stated_of_unspaced (spoken exception List.mem_cons_self)).toTidy
          refine { normal with docstring := { known with raises := ?_ } }
          exact List.forall_mem_append.mpr
            ⟨known.raises, List.forall_mem_singleton.mpr (normal_raiseOf tidy free)⟩
      | examples =>
          refine { normal with docstring := { known with examples := ?_ } }
          exact List.forall_mem_append.mpr ⟨known.examples, code_exampleBlocks free.dedent⟩
      | other => exact normal

theorem attachType_normal {parameters : List DocParameter} {name typeName : String}
    (normal : ∀ parameter ∈ parameters, parameter.Normal .rest)
    (stated : Stated typeName.toList) :
    ∀ parameter ∈ attachType parameters name typeName, parameter.Normal .rest := by
  fun_induction attachType parameters name typeName with
  | case1 => exact normal
  | case2 parameter rest _same =>
      obtain ⟨here, later⟩ := List.forall_mem_cons.mp normal
      refine List.forall_mem_cons.mpr ⟨{ here with typeName := ?_ }, later⟩
      rintro text ⟨⟩
      exact stated
  | case3 parameter rest _other ih =>
      obtain ⟨here, later⟩ := List.forall_mem_cons.mp normal
      exact List.forall_mem_cons.mpr ⟨here, ih later⟩

theorem Draft.Normal.finish {draft : Draft} (normal : draft.Normal) :
    draft.finish.Normal .rest := by
  have parameters : ∀ parameter ∈ draft.finish.parameters, parameter.Normal .rest := by
    refine List.foldlRecOn (motive := fun known : List DocParameter =>
      ∀ parameter ∈ known, parameter.Normal .rest)
      draft.types _ normal.docstring.parameters ?_
    intro known already pair listed
    exact attachType_normal already (normal.types pair listed)
  have returns : ∀ entry ∈ draft.finish.returns, entry.Normal := by
    intro entry found
    unfold Draft.finish at found
    dsimp only at found
    split at found
    · exact normal.docstring.returns entry found
    · next typeName declared =>
        cases found
        refine ⟨?_, ?_⟩
        · rintro text ⟨⟩
          exact normal.returnType typeName declared
        · cases known : draft.docstring.returns with
          | none => exact ⟨Text.trimmed_nil, List.not_mem_nil⟩
          | some described => exact (normal.docstring.returns described known).description
  exact { normal.docstring with parameters, returns }

theorem addFields_normal {docstring : Docstring} {parts : List Section}
    (normal : docstring.Normal .rest) (free : ∀ part ∈ parts, NewlineFree part.lines) :
    (addFields docstring parts).Normal .rest := by
  have empty : Draft.Normal ⟨docstring, [], none⟩ :=
    ⟨normal, List.forall_mem_nil _, fun _text none => absurd none (Option.not_mem_none _)⟩
  have run : (parts.foldl addField ⟨docstring, [], none⟩).Normal :=
    List.foldlRecOn parts addField empty
      fun _draft known part listed => addField_normal known (free part listed)
  exact run.finish

end FieldList

/-! ### Whole docstrings -/

theorem normal_described (style : Style) {description : String}
    (trimmed : Trimmed description.toList) : Normal style { empty with description } where
  description := trimmed
  parameters := List.forall_mem_nil _
  returns := fun _entry none => absurd none (Option.not_mem_none _)
  raises := List.forall_mem_nil _
  examples := List.forall_mem_nil _

theorem ofLines_normal (style : Style) {lines : List Line} (free : NewlineFree lines) :
    (ofLines style lines).Normal style := by
  have described : Normal style { empty with
      description := String.ofList (Text.trim (Text.unlines (outline style lines).description)) } := by
    refine normal_described style ?_
    rw [String.toList_ofList]
    exact Text.trimmed_trim _
  have parts := newlineFree_outline style free
  unfold ofLines
  cases style with
  | google => exact addSections_normal Google.topics_normal described parts
  | numpy => exact addSections_normal Numpy.topics_normal described parts
  | rest => exact FieldList.addFields_normal described parts

/-- Whatever is read from a text is in normal form. -/
theorem parse_normal_form (style : Style) (text : Option String) :
    (parse? style text).Normal style := by
  have nothing : Normal style empty := normal_described style (by decide)
  cases text with
  | none => exact nothing
  | some text =>
      unfold parse? parse
      dsimp only
      split
      · exact nothing
      · exact ofLines_normal style (newlineFree_lines _)

end Docstring

end DocHarvest
