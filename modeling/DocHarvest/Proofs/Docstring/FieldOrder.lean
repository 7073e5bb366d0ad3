import DocHarvest.Proofs.Docstring.FieldContent

/-!
The order of fields.

What the fields about one topic say goes to a place of its own, so that fields about different
topics do not see each other.  Types are attached when all fields have been read: the last one that
is declared for a name goes to the first parameter of this name.
-/

namespace DocHarvest.Docstring.FieldList

open Text (Line)

/-! ### Topics -/

/-- The words that stand for a topic at the beginning of a key. -/
def Topic.vocabulary : Topic → List String
  | .parameter => ["param", "parameter", "arg", "argument", "key", "keyword"]
  | .type => ["type"]
  | .returns => ["returns", "return"]
  | .returnType => ["rtype"]
  | .raises => ["raises", "raise", "except", "exception"]
  | .examples => ["example", "examples"]
  | .other => []

/-- The first word of a key, in small letters. -/
def keyword (part : Section) : String :=
  String.ofList (Text.lower ((Text.words part.name).headD []))

/-- The words of a key after the first. -/
def arguments (part : Section) : List Line :=
  (Text.words part.name).tail

def about (topic : Topic) (parts : List Section) : List Section :=
  parts.filter fun part => topic.vocabulary.contains (keyword part)

theorem Topic.ofWord_eq_iff {topic : Topic} (known : topic ≠ .other) (word : Line) :
    Topic.ofWord word = topic ↔
      topic.vocabulary.contains (String.ofList (Text.lower word)) = true := by
  unfold Topic.ofWord
  generalize String.ofList (Text.lower word) = spelled
  constructor
  · rintro rfl
    dsimp only at known ⊢
    split_ifs at known ⊢ with parameter type returns returnType raises examples
    · exact parameter
    · rw [eq_of_beq type]
      rfl
    · exact returns
    · rw [eq_of_beq returnType]
      rfl
    · exact raises
    · exact examples
    · exact absurd rfl known
  · -- no word stands in two vocabularies
    rw [List.contains_iff_mem]
    revert spelled
    cases topic with
    | parameter => decide
    | type => decide
    | returns => decide
    | returnType => decide
    | raises => decide
    | examples => decide
    | other => exact absurd rfl known

theorem about_singleton {topic : Topic} (known : topic ≠ .other) (part : Section) :
    about topic [part] =
      if Topic.ofWord ((Text.words part.name).headD []) = topic then [part] else [] := by
  unfold about keyword
  rw [List.filter_cons, List.filter_nil]
  simp only [Topic.ofWord_eq_iff known]

/-! ### What fields say -/

def typeText? (part : Section) : Option String :=
  (Text.nonBlank (Text.joinFragments part.lines)).map String.ofList

/-- The parameter that a field describes: its last argument, with the others as its type. -/
def parameter? (part : Section) : Option DocParameter :=
  (arguments part).getLast?.map fun name =>
    parameterOf name (Text.nonBlank (Text.join [' '] (arguments part).dropLast)) part.lines

/-- The type that a field declares, behind the name it is for: the last argument of the field.
Neither a key without arguments nor a blank text declares anything. -/
def type? (part : Section) : Option (String × String) :=
  (arguments part).getLast?.bind fun name =>
    (typeText? part).map fun typeName => (String.ofList name, typeName)

def raised (part : Section) : DocRaise :=
  raiseOf ((arguments part).getLast?.getD []) part.lines

/-- The parameters as their own fields describe them. -/
def described (parts : List Section) : List DocParameter :=
  (about .parameter parts).filterMap parameter?

/-- The names with the types that are declared for them. -/
def declared (parts : List Section) : List (String × String) :=
  (about .type parts).filterMap type?

/-- A draft with what some fields say, topic by topic. -/
def Draft.gather (draft : Draft) (parts : List Section) : Draft :=
  { docstring :=
      { draft.docstring with
        parameters := draft.docstring.parameters ++ described parts
        returns :=
          ((about .returns parts).getLast?.map fun part => returnOf none part.lines).or
            draft.docstring.returns
        raises := draft.docstring.raises ++ (about .raises parts).map raised
        examples :=
          draft.docstring.examples ++
            (about .examples parts).flatMap fun part => exampleBlocks (dedent part.lines) }
    types := draft.types ++ declared parts
    returnType := ((about .returnType parts).getLast?.map typeText?).getD draft.returnType }

theorem Draft.gather_nil (draft : Draft) : draft.gather [] = draft := by
  simp [gather, described, declared, about]

theorem Draft.gather_append (draft : Draft) (front back : List Section) :
    draft.gather (front ++ back) = (draft.gather front).gather back := by
  simp [gather, described, declared, about, List.getLast?_append, Option.map_or, Option.or_assoc]

theorem addField_eq_gather (draft : Draft) (part : Section) :
    addField draft part = draft.gather [part] := by
  unfold Draft.gather described declared
  simp (disch := decide) only [about_singleton]
  cases found : Text.words part.name with
  | nil =>
      have nothing : Topic.ofWord [] = .other := rfl
      simp [addField, found, nothing]
  | cons word rest =>
      have behind : arguments part = rest := by
        unfold arguments
        rw [found]
        rfl
      rw [List.headD_cons]
      cases topic : Topic.ofWord word with
      | parameter =>
          rcases List.eq_nil_or_concat' rest with rfl | ⟨before, name, rfl⟩
          · simp [addField, found, topic, parameter?, behind]
          · rw [addField_parameter draft found topic]
            simp [parameter?, behind]
      | type =>
          rcases List.eq_nil_or_concat' rest with rfl | ⟨before, name, rfl⟩
          · simp [addField, found, topic, type?, behind]
          · cases said : Text.nonBlank (Text.joinFragments part.lines) with
            | none => simp [addField, found, topic, type?, typeText?, behind, said]
            | some typeName =>
                rw [addField_type draft found topic said]
                simp [type?, typeText?, behind, said]
      | returns =>
          rw [addField_returns draft found topic]
          simp
      | returnType =>
          rw [addField_returnType draft found topic]
          simp [typeText?]
      | raises =>
          rcases List.eq_nil_or_concat' rest with rfl | ⟨before, name, rfl⟩
          · simp [addField, found, topic, raised, behind]
          · rw [addField_raises draft found topic]
            simp [raised, behind]
      | examples => simp [addField, found, topic]
      | other => simp [addField, found, topic]

theorem foldl_addField_eq_gather (draft : Draft) (parts : List Section) :
    parts.foldl addField draft = draft.gather parts := by
  induction parts generalizing draft with
  | nil => exact draft.gather_nil.symm
  | cons part rest ih =>
      rw [List.foldl_cons, ih, addField_eq_gather, ← Draft.gather_append, List.singleton_append]

theorem Draft.gather_congr (draft : Draft) {parts others : List Section}
    (same : ∀ topic, about topic parts = about topic others) :
    draft.gather parts = draft.gather others := by
  unfold gather described declared
  simp only [same]

/-! ### Types of parameters -/

theorem attachType_getElem? (parameters : List DocParameter) (name typeName : String)
    (index : Nat) :
    (attachType parameters name typeName)[index]? =
      parameters[index]?.map fun parameter =>
        if parameter.name = name ∧ name ∉ (parameters.take index).map DocParameter.name then
          parameter.withType typeName
        else parameter := by
  fun_induction attachType parameters name typeName generalizing index with
  | case1 => rfl
  | case2 parameter rest same =>
      cases index with
      | zero => simp [eq_of_beq same]
      | succ index => simp [eq_of_beq same]
  | case3 parameter rest other ih =>
      have unequal : name ≠ parameter.name := fun clash => other (beq_iff_eq.mpr clash.symm)
      cases index with
      | zero => simp [unequal.symm]
      | succ index => simp [ih, unequal]

/-- The last type that is declared for a name. -/
def lastType? (types : List (String × String)) (name : String) : Option String :=
  types.reverse.lookup name

theorem lastType?_append (types : List (String × String)) (name typeName other : String) :
    lastType? (types ++ [(name, typeName)]) other =
      if other = name then some typeName else lastType? types other := by
  unfold lastType?
  rw [List.reverse_append, List.reverse_singleton, List.singleton_append, List.lookup_cons]
  cases same : other == name with
  | true => rw [if_pos (eq_of_beq same)]
  | false => rw [if_neg (beq_eq_false_iff_ne.mp same)]

theorem foldl_attachType_names (types : List (String × String)) (parameters : List DocParameter) :
    (types.foldl (fun parameters (name, typeName) => attachType parameters name typeName)
      parameters).map DocParameter.name = parameters.map DocParameter.name := by
  induction types generalizing parameters with
  | nil => rfl
  | cons pair rest ih => rw [List.foldl_cons, ih, attachType_names]

/-- Each declared type overwrites the one before it, and goes to the first parameter of its name. -/
theorem foldl_attachType_getElem? (types : List (String × String))
    (parameters : List DocParameter) (index : Nat) :
    (types.foldl (fun parameters (name, typeName) => attachType parameters name typeName)
      parameters)[index]? =
      parameters[index]?.map fun parameter =>
        if parameter.name ∈ (parameters.take index).map DocParameter.name then parameter
        else
          { parameter with
            typeName := (lastType? types parameter.name).or parameter.typeName } := by
  induction types using List.reverseRecOn with
  | nil => simp [lastType?]
  | append_singleton rest pair ih =>
      obtain ⟨name, typeName⟩ := pair
      have before := congrArg (List.take index) (foldl_attachType_names rest parameters)
      rw [← List.map_take, ← List.map_take] at before
      rw [List.foldl_append, List.foldl_cons, List.foldl_nil, attachType_getElem?, before, ih,
        Option.map_map]
      congr 1
      funext parameter
      rw [Function.comp_apply, lastType?_append]
      by_cases known : parameter.name ∈ (parameters.take index).map DocParameter.name
      · have kept : ¬ (parameter.name = name ∧
            name ∉ (parameters.take index).map DocParameter.name) := by
          rintro ⟨rfl, absent⟩
          exact absent known
        rw [if_pos known, if_pos known, if_neg kept]
      · rw [if_neg known, if_neg known]
        by_cases same : parameter.name = name
        · subst same
          rw [if_pos ⟨rfl, known⟩, if_pos rfl]
          rfl
        · rw [if_neg fun both => same both.1, if_neg same]

/-! ### Fields in any order -/

theorem addFields_parameters (docstring : Docstring) (parts : List Section) :
    (addFields docstring parts).parameters =
      (declared parts).foldl
        (fun parameters (name, typeName) => attachType parameters name typeName)
        (docstring.parameters ++ described parts) := by
  unfold addFields
  rw [foldl_addField_eq_gather]
  rfl

/-- What fields say does not change when fields about different topics change places, or when
fields about no topic come and go.  The first parameter of a name has the last type that is declared
for this name, if there is one; every other has the type that stands with its name. -/
theorem addFields_by_topic (docstring : Docstring) (parts : List Section) :
    (∀ others, (∀ topic, about topic others = about topic parts) →
      addFields docstring others = addFields docstring parts) ∧
    ∀ index, (addFields docstring parts).parameters[index]? =
      (docstring.parameters ++ described parts)[index]?.map fun parameter =>
        if parameter.name ∈
            ((docstring.parameters ++ described parts).take index).map DocParameter.name then
          parameter
        else
          { parameter with
            typeName := (lastType? (declared parts) parameter.name).or parameter.typeName } := by
  constructor
  · intro others same
    unfold addFields
    rw [foldl_addField_eq_gather, foldl_addField_eq_gather, Draft.gather_congr _ same]
  · intro index
    rw [addFields_parameters, foldl_attachType_getElem?]

def scattered : List Section :=
  [⟨"type x".toList, ["str".toList]⟩, ⟨"note".toList, ["none".toList]⟩,
    ⟨"PARAM int x".toList, ["one".toList]⟩, ⟨"rtype".toList, ["bool".toList]⟩,
    ⟨"type of x".toList, ["list".toList]⟩, ⟨"arg float x".toList, ["two".toList]⟩,
    ⟨"type x".toList, [" ".toList]⟩, ⟨"returns".toList, ["three".toList]⟩]

theorem addFields_by_topic_scattered :
    addFields empty
        [⟨"returns".toList, ["three".toList]⟩, ⟨"PARAM int x".toList, ["one".toList]⟩,
          ⟨"arg float x".toList, ["two".toList]⟩, ⟨"type x".toList, ["str".toList]⟩,
          ⟨"type of x".toList, ["list".toList]⟩, ⟨"type x".toList, [" ".toList]⟩,
          ⟨"meta".toList, []⟩, ⟨"rtype".toList, ["bool".toList]⟩] = addFields empty scattered ∧
      (addFields empty scattered).parameters[0]? = some ⟨"x", some "list", "one"⟩ ∧
      (addFields empty scattered).parameters[1]? = some ⟨"x", some "float", "two"⟩ := by
  refine ⟨(addFields_by_topic empty scattered).1 _ ?_, ?_, ?_⟩
  · intro topic
    cases topic with
    | parameter => decide
    | type => decide
    | returns => decide
    | returnType => decide
    | raises => decide
    | examples => decide
    | other => decide
  · exact ((addFields_by_topic empty scattered).2 0).trans (by decide)
  · exact ((addFields_by_topic empty scattered).2 1).trans (by decide)

/-- A key of the word `type` alone names no parameter, not even one that is called `type`. -/
theorem bare_type_declares_nothing :
    (Text.words "type".toList).getLast? = some "type".toList ∧
      (addFields empty
        [⟨"param type".toList, ["which".toList]⟩, ⟨"type".toList, ["int".toList]⟩]).parameters =
        [⟨"type", none, "which"⟩] := by
  decide

end DocHarvest.Docstring.FieldList
