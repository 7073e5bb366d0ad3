import DocHarvest.Proofs.Extract.CommentedTypes

/-!
Comments inside brackets.

A comment may stand between any two parts of a phrase in brackets.  Parameters, bases, annotations
and default values are read past the comments, with two exceptions.  Where the text of a phrase is
taken as it is written, the comment is part of that text; and a comment among type arguments is
rendered as if it were one of them.
-/

namespace DocHarvest.Extract

open Program (Kind Role Tree)

/-! ### Default values -/

/-- The same default value, with comments put in between the elements of lists and tuples and
inside names.  Any other value has its words unchanged. -/
inductive CommentedValue : Tree → Tree → Prop where
  | words {left right : Tree} : left.kind ∉ [Kind.attributeAccess, .list, .tuple] →
      SameWords left right → CommentedValue left right
  | access {left right : Tree} : left.kind = .attributeAccess →
      Commented openBrackets left right → CommentedValue left right
  | elements {role : Option Role} {kind : Kind} {parts others : List Tree} :
      kind = .list ∨ kind = .tuple → Interspersed CommentedValue true parts others →
      CommentedValue (.node role kind parts) (.node role kind others)

namespace CommentedValue

variable {left right : Tree}

theorem kind (commented : CommentedValue left right) : right.kind = left.kind := by
  cases commented with
  | words _other same => exact same.kind
  | access _kind same => exact same.kind
  | elements _kind _parts => rfl

theorem interspersed (commented : CommentedValue left right)
    (listed : left.kind = .list ∨ left.kind = .tuple) :
    Interspersed CommentedValue true left.parts right.parts := by
  cases commented with
  | words other _same =>
      rcases listed with list | tuple
      · exact absurd (by simp [list]) other
      · exact absurd (by simp [tuple]) other
  | access kind _same =>
      rw [kind] at listed
      rcases listed with list | tuple
      · cases list
      · cases tuple
  | elements _kind parts => exact parts

theorem elements_paired (commented : CommentedValue left right)
    (listed : left.kind = .list ∨ left.kind = .tuple) :
    List.Forall₂ CommentedValue (Extract.elements left) (Extract.elements right) :=
  (commented.interspersed listed).elements fun _ _ same => same.kind

theorem defaultText (commented : CommentedValue left right) :
    defaultText right = defaultText left := by
  induction left using Grammar.Tree.byParts generalizing right with
  | step left ih =>
      have kind := commented.kind
      have inner (listed : left.kind = .list ∨ left.kind = .tuple) :
          (Extract.elements right).map Extract.defaultText =
            (Extract.elements left).map Extract.defaultText := by
        apply forall₂_map_eq Extract.defaultText (commented.elements_paired listed)
        intro part member other _among same
        have below : part ∈ left.parts :=
          (List.mem_filter.mp (List.mem_filter.mp member).1).1
        exact ih part below same
      by_cases list : left.kind = .list
      · rw [defaultText_list list, defaultText_list (kind.trans list), inner (Or.inl list)]
      · by_cases tuple : left.kind = .tuple
        · rw [defaultText_tuple tuple, defaultText_tuple (kind.trans tuple), inner (Or.inr tuple)]
        · cases commented with
          | words other same => exact same.defaultText other
          | access kind same =>
              rw [defaultText_attribute kind, defaultText_attribute (same.kind.trans kind),
                same.expressionName]
          | elements listed _parts => exact (listed.elim list tuple).elim

end CommentedValue

/-! ### Bases and parameters -/

theorem bases_commented {arguments other : Tree} (kind : arguments.kind = .argumentList)
    (commented : Commented openBrackets arguments other) : bases other = bases arguments := by
  unfold bases
  apply forall₂_map_eq
  · refine ((commented.interspersed_named (by rw [kind]; rfl)).filter ?_).paired ?_
    · intro part inner same
      rw [same.kind]
    · intro _admitted comment member isComment
      have kept := (List.mem_filter.mp member).2
      rw [isComment] at kept
      cases kept
  · intro part _member inner _among same
    rw [same.expressionName]

/-- A part of a parameter list with comments put in: the name of an annotated parameter is a word,
the annotation is built as the renderer expects, and the comments in the default value stand
where it is read by its parts. -/
structure CommentedPart (part other : Tree) : Prop where
  same : Commented openBrackets part other
  bearer : part.kind = .typedParameter →
    ∀ inner, (Tree.named part).head? = some inner → isComposed inner.kind = false
  typing : ∀ typed, Tree.part? part .type = some typed → TypeExpression typed
  default : ∀ value, Tree.part? part .value = some value →
    ∀ inner, Tree.part? other .value = some inner → CommentedValue value inner

section Parameters

variable {part other : Tree}

theorem parameterOf?_other (kind : other.kind = part.kind)
    (bearer : part.kind ∉ [Kind.identifier, .listSplatPattern, .dictionarySplatPattern])
    (typed : part.kind ≠ .typedParameter)
    (valued : ¬(part.kind = .defaultParameter ∨ part.kind = .typedDefaultParameter)) :
    parameterOf? other = parameterOf? part := by
  have none : isParameter part = false := by
    unfold isParameter
    rw [Bool.eq_false_iff, ne_eq, List.contains_iff_mem]
    simp only [List.mem_cons, List.not_mem_nil, or_false, not_or] at bearer valued ⊢
    exact ⟨bearer.1, bearer.2.1, bearer.2.2, typed, valued.1, valued.2⟩
  have noneOther : isParameter other = false := by
    unfold isParameter at none ⊢
    rw [kind]
    exact none
  rw [parameterOf?_eq_none none, parameterOf?_eq_none noneOther]

theorem parameterOf?_words (words : isComposed part.kind = false) (same : SameWords part other) :
    parameterOf? other = parameterOf? part := by
  by_cases bearer : part.kind ∈ [Kind.identifier, .listSplatPattern, .dictionarySplatPattern]
  · rw [parameterOf?_bearer bearer, parameterOf?_bearer (by rw [same.kind]; exact bearer),
      same.kind, same.text]
  · have apart {kind : Kind} (composed : isComposed kind = true) : part.kind ≠ kind := by
      intro equal
      rw [equal, composed] at words
      cases words
    exact parameterOf?_other same.kind bearer (apart rfl) (not_or.mpr ⟨apart rfl, apart rfl⟩)

theorem parameterOf?_valued
    (kind : part.kind = .defaultParameter ∨ part.kind = .typedDefaultParameter) :
    parameterOf? part =
      ((Tree.part? part .name).map Grammar.Tree.text).map fun name =>
        let parameter := annotate part (Parameter.ofName (String.ofList name))
        match (Tree.part? part .value).map defaultText with
        | some value => parameter.withDefault (String.ofList value)
        | none => parameter := by
  unfold parameterOf?
  rw [Grammar.Tree.fold_eq]
  rcases kind with kind | kind
  all_goals
    simp only [kind, Option.map_map]
    refine congrArg (fun make => Option.map make _) (funext fun name => ?_)
    cases Tree.part? part .value <;> rfl

theorem parameterOf?_unnamed (kind : part.kind = .typedParameter) (none : Tree.named part = []) :
    parameterOf? part = Option.none := by
  unfold parameterOf?
  rw [Grammar.Tree.fold_eq, ofNamed_map, none]
  simp only [kind, List.map_nil]

theorem annotate_commented (commented : CommentedPart part other)
    (composed : isComposed part.kind = true) (parameter : Parameter) :
    annotate other parameter = annotate part parameter := by
  have typed : (Tree.part? other .type).map (fun typed => (renderedType typed).text) =
      (Tree.part? part .type).map fun typed => (renderedType typed).text := by
    apply commented.same.part?_map composed
    intro typed found inner _there same
    exact (commented.typing typed found).text_past_comments same
  unfold annotate
  cases found : Tree.part? part .type with
  | none =>
      rw [found, Option.map_none, Option.map_eq_none_iff] at typed
      rw [typed]
  | some written =>
      rw [found, Option.map_some, Option.map_eq_some_iff] at typed
      obtain ⟨inner, here, text⟩ := typed
      rw [here]
      show parameter.withType _ = parameter.withType _
      rw [text]

theorem value_commented (commented : CommentedPart part other)
    (composed : isComposed part.kind = true) :
    (Tree.part? other .value).map defaultText = (Tree.part? part .value).map defaultText := by
  have present : (Tree.part? other .value).map (fun _ => ()) =
      (Tree.part? part .value).map fun _ => () :=
    commented.same.part?_map composed fun _ _ _ _ _ => rfl
  cases found : Tree.part? part .value with
  | none =>
      rw [found, Option.map_none, Option.map_eq_none_iff] at present
      rw [present]
  | some value =>
      rw [found, Option.map_some, Option.map_eq_some_iff] at present
      obtain ⟨inner, here, _unit⟩ := present
      have text := (commented.default value found inner here).defaultText
      rw [here, Option.map_some, Option.map_some, text]

theorem parameterOf?_commented (commented : CommentedPart part other) :
    parameterOf? other = parameterOf? part := by
  have kind := commented.same.kind
  cases composed : isComposed part.kind with
  | false => exact parameterOf?_words composed (commented.same.sameWords composed)
  | true =>
      have annotated := annotate_commented commented composed
      by_cases typed : part.kind = .typedParameter
      · have paired := commented.same.named_of_closed composed (by rw [typed]; rfl)
        generalize listed : Tree.named part = parts at paired
        generalize others : Tree.named other = inner at paired
        cases paired with
        | nil =>
            rw [parameterOf?_unnamed typed listed,
              parameterOf?_unnamed (kind.trans typed) others]
        | @cons bearer otherBearer _ _ same _later =>
            have words := commented.bearer typed bearer (by rw [listed]; rfl)
            rw [parameterOf?_typed typed listed,
              parameterOf?_typed (kind.trans typed) others,
              parameterOf?_words words (same.sameWords words)]
            exact congrArg (fun make => Option.map make _) (funext annotated)
      · by_cases valued : part.kind = .defaultParameter ∨ part.kind = .typedDefaultParameter
        · have name : (Tree.part? other .name).map Grammar.Tree.text =
              (Tree.part? part .name).map Grammar.Tree.text := by
            apply commented.same.part?_map composed
            intro name found inner _there same
            exact same.name_text (Or.inl (role_of_part? found))
          rw [parameterOf?_valued valued, parameterOf?_valued (by rw [kind]; exact valued), name,
            value_commented commented composed]
          refine congrArg (fun make => Option.map make _) (funext fun text => ?_)
          rw [annotated]
        · refine parameterOf?_other kind ?_ typed valued
          intro bearer
          have words : ∀ kind ∈ [Kind.identifier, .listSplatPattern, .dictionarySplatPattern],
              isComposed kind = false := by decide
          rw [words part.kind bearer] at composed
          cases composed

end Parameters

/-- Comments among the parts of a signature declare nothing and change nothing behind them. -/
theorem parametersFrom_without_comments (keywordOnly : Bool) (parts : List Tree) :
    parametersFrom keywordOnly (parts.filter fun part => part.kind != .comment) =
      parametersFrom keywordOnly parts := by
  induction parts generalizing keywordOnly with
  | nil => rfl
  | cons part rest ih =>
      by_cases comment : part.kind = .comment
      · rw [List.filter_cons_of_neg (by rw [comment]; decide), ih, parametersFrom]
        simp only [comment]
      · rw [List.filter_cons_of_pos (by simpa using comment), parametersFrom, parametersFrom]
        simp only [ih]

theorem parametersFrom_congr {parts others : List Tree}
    (paired : List.Forall₂
      (fun part other => other.kind = part.kind ∧ parameterOf? other = parameterOf? part)
      parts others) (keywordOnly : Bool) :
    parametersFrom keywordOnly others = parametersFrom keywordOnly parts := by
  induction paired generalizing keywordOnly with
  | nil => rfl
  | cons same _later ih =>
      rw [parametersFrom, parametersFrom, same.1, same.2]
      simp only [ih]

theorem parameters_commented {list other : Tree}
    (interspersed : Interspersed CommentedPart true list.parts other.parts) :
    parameters other = parameters list := by
  have paired : List.Forall₂ CommentedPart (elements list) (elements other) :=
    interspersed.elements fun _ _ commented => commented.same.kind
  unfold parameters
  rw [← parametersFrom_without_comments, ← parametersFrom_without_comments false (Tree.named list)]
  apply parametersFrom_congr
  refine List.Forall₂.imp ?_ paired
  intro part inner commented
  exact ⟨commented.same.kind, parameterOf?_commented commented⟩

/-- Comments in parameter lists, base lists, lists, tuples and subscripts never show in a signature.
Among type arguments a comment is rendered like an argument, so an annotation is rendered as it was
exactly if no comment shows there.  A subscript in a default value is not read by its parts: all of
its text shows. -/
theorem signature_past_comments (tree other : Tree) :
    (Interspersed CommentedPart true tree.parts other.parts →
      parameters other = parameters tree) ∧
    (tree.kind = .argumentList → Commented openBrackets tree other → bases other = bases tree) ∧
    (CommentedValue tree other → defaultText other = defaultText tree) ∧
    (tree.kind = .subscript → defaultText tree = collapsed tree) ∧
    (TypeExpression tree → Commented openBrackets tree other →
      (renderedType other).text = (renderedType tree).text) ∧
    (TypeExpression tree → Furnished tree → Commented (.typeParameter :: openBrackets) tree other →
      ((renderedType other).text = (renderedType tree).text ↔ ¬ShowsComment other)) ∧
    ∀ name arguments : Tree, IsGeneric tree name arguments →
      (renderedType tree).text =
          (renderedType name).text ++ '[' :: commaSeparated (argumentTexts arguments) ++ [']'] ∧
        Noted ((Tree.named arguments).filter fun part => part.kind == .comment)
          ((elements arguments).map fun part => (renderedType part).text)
          (argumentTexts arguments) := by
  refine ⟨?_, ?_, ?_, ?_, ?_, ?_, ?_⟩
  · exact parameters_commented
  · exact bases_commented
  · exact CommentedValue.defaultText
  · exact defaultText_subscript
  · exact TypeExpression.text_past_comments
  · exact TypeExpression.text_eq_iff
  · intro name arguments generic
    exact ⟨generic.text, argumentTexts_noted arguments⟩

/-! ### A signature over several lines -/

/-- A comment at the end of a line. -/
def note : Tree :=
  .leaf none .comment [' '] "# note".toList .origin

/-- The subscript `x[i]` with some trees behind its opening bracket. -/
def indexed (role : Option Role) (between : List Tree) : Tree :=
  .node role .subscript
    ((bareLeaf .identifier "x").inRole (some .value) :: mark "[" :: between ++
      [.leaf (some .index) .identifier ['\n'] "i".toList .origin, mark "]"])

/-- The list `[1]` as a default value, with some trees behind its opening bracket. -/
def listed (between : List Tree) : Tree :=
  .node (some .value) .list (mark "[" :: between ++ [bareLeaf .integer "1", mark "]"])

/-- The parameter `a: x[i] = [1]` with some trees behind each opening bracket. -/
def annotatedDefault (between : List Tree) : Tree :=
  .node none .typedDefaultParameter
    [(bareLeaf .identifier "a").inRole (some .name), mark ":",
      .node (some .type) .type [indexed none between], mark "=", listed between]

/-- The signature `(a: x[i] = [1])` with some trees behind each opening bracket. -/
def multiline (between : List Tree) : Tree :=
  .node none .parameters (mark "(" :: between ++ [annotatedDefault between, mark ")"])

/-- The bases `(Base)` with some trees behind the opening bracket. -/
def multilineBases (between : List Tree) : Tree :=
  .node none .argumentList (mark "(" :: between ++ [bareLeaf .identifier "Base", mark ")"])

/-- The type arguments `[str]` with some trees behind their opening bracket. -/
def keys (between : List Tree) : Tree :=
  .node none .typeParameter
    (mark "[" :: between ++ [.node none .type [bareLeaf .identifier "str"], mark "]"])

/-- The type `Dict[str]` with some trees behind its opening bracket. -/
def keyed (between : List Tree) : Tree :=
  .node none .genericType [bareLeaf .identifier "Dict", keys between]

theorem Commented.word {brackets : List Kind} {tree : Tree} (words : isComposed tree.kind = false) :
    Commented brackets tree tree :=
  .words words ⟨rfl, rfl, rfl, rfl⟩

theorem CommentedValue.word {tree : Tree}
    (other : tree.kind ∉ [Kind.attributeAccess, .list, .tuple]) : CommentedValue tree tree :=
  .words other ⟨rfl, rfl, rfl, rfl⟩

theorem CommentedPart.word {role : Option Role} {kind : Kind} {gap text : List Char}
    {start : Grammar.Place} (words : isComposed kind = false) :
    CommentedPart (.leaf role kind gap text start) (.leaf role kind gap text start) where
  same := .word words
  bearer _kind _inner found := by cases found
  typing _typed found := by cases found
  default _value found := by cases found

theorem indexed_commented (role : Option Role) (name : role ≠ some .name)
    (member : role ≠ some .member) :
    Commented openBrackets (indexed role []) (indexed role [note]) := by
  apply Commented.phrase rfl name member
  exact .part (.word rfl) (.part (.word rfl) (.comment rfl rfl
    (.part (.word rfl) (.part (.word rfl) .nil))))

theorem indexed_typeExpression (role : Option Role) : TypeExpression (indexed role []) := by
  refine .subscript rfl ?_
  intro part member
  have words : ∀ part ∈ partsIn (indexed none []) .value ++ partsIn (indexed none []) .index,
      isComposed part.kind = false := by decide
  exact .words (words part member)

theorem listed_commented : CommentedValue (listed []) (listed [note]) := by
  refine .elements (Or.inl rfl) ?_
  exact .part (.word (by decide)) (.comment rfl rfl
    (.part (.word (by decide)) (.part (.word (by decide)) .nil)))

theorem annotatedDefault_commented :
    CommentedPart (annotatedDefault []) (annotatedDefault [note]) where
  same := by
    have typed := indexed_commented none (by decide) (by decide)
    have value : Commented openBrackets (listed []) (listed [note]) := by
      apply Commented.phrase rfl (by decide) (by decide)
      exact .part (.word rfl) (.comment rfl rfl (.part (.word rfl) (.part (.word rfl) .nil)))
    apply Commented.phrase rfl (by decide) (by decide)
    exact .part (.word rfl) (.part (.word rfl) (.part
      (.phrase rfl (by decide) (by decide) (.part typed .nil))
        (.part (.word rfl) (.part value .nil))))
  bearer typed := Kind.noConfusion typed
  typing typed found := by
    obtain rfl := Option.some.inj found
    exact .wrapped rfl rfl (indexed_typeExpression none)
  default value found inner other := by
    obtain rfl := Option.some.inj found
    obtain rfl := Option.some.inj other
    exact listed_commented

theorem keyed_generic (between : List Tree) :
    IsGeneric (keyed between) (bareLeaf .identifier "Dict") (keys between) :=
  ⟨rfl, rfl, rfl⟩

theorem keyed_typeExpression : TypeExpression (keyed []) := by
  refine .generic rfl rfl rfl (.words rfl) ?_
  intro part member
  obtain rfl := List.mem_singleton.mp member
  exact .wrapped rfl rfl (.words rfl)

theorem keyed_furnished : Furnished (keyed []) :=
  ⟨by decide, not_showsComment_of_uncommented (by decide)⟩

/-- A comment is put in behind the opening bracket of the type arguments. -/
theorem keyed_commented : Commented (.typeParameter :: openBrackets) (keyed []) (keyed [note]) := by
  have key : Commented (.typeParameter :: openBrackets)
      (.node none .type [bareLeaf .identifier "str"])
      (.node none .type [bareLeaf .identifier "str"]) := by
    apply Commented.phrase rfl (by decide) (by decide)
    exact .part (.word rfl) .nil
  have row : Commented (.typeParameter :: openBrackets) (keys []) (keys [note]) := by
    apply Commented.phrase rfl (by decide) (by decide)
    exact .part (.word rfl) (.comment rfl rfl (.part key (.part (.word rfl) .nil)))
  apply Commented.phrase rfl (by decide) (by decide)
  exact .part (.word rfl) (.part row .nil)

theorem signature_past_comments_multiline :
    parameters (multiline [note]) = parameters (multiline []) ∧
      bases (multilineBases [note]) = bases (multilineBases []) ∧
      defaultText (listed [note]) = defaultText (listed []) ∧
      defaultText (indexed none [note]) = collapsed (indexed none [note]) ∧
      (renderedType (indexed none [note])).text = (renderedType (indexed none [])).text ∧
      ((renderedType (keyed [note])).text = (renderedType (keyed [])).text ↔
        ¬ShowsComment (keyed [note])) ∧
      (renderedType (keyed [note])).text = "Dict[# note, str]".toList := by
  obtain ⟨signature, -⟩ := signature_past_comments (multiline []) (multiline [note])
  obtain ⟨-, baseNames, -⟩ := signature_past_comments (multilineBases []) (multilineBases [note])
  obtain ⟨-, -, value, -⟩ := signature_past_comments (listed []) (listed [note])
  obtain ⟨-, -, -, text, -⟩ := signature_past_comments (indexed none [note]) note
  obtain ⟨-, -, -, -, typed, -⟩ := signature_past_comments (indexed none []) (indexed none [note])
  obtain ⟨-, -, -, -, -, exactly, -⟩ := signature_past_comments (keyed []) (keyed [note])
  obtain ⟨-, -, -, -, -, -, generic⟩ := signature_past_comments (keyed [note]) note
  refine ⟨?_, ?_, ?_, ?_, ?_, ?_, ?_⟩
  · apply signature
    exact .part (.word rfl) (.comment rfl rfl
      (.part annotatedDefault_commented (.part (.word rfl) .nil)))
  · apply baseNames rfl
    apply Commented.phrase rfl (by decide) (by decide)
    exact .part (.word rfl) (.comment rfl rfl (.part (.word rfl) (.part (.word rfl) .nil)))
  · exact value listed_commented
  · exact text rfl
  · exact typed (indexed_typeExpression none) (indexed_commented none (by decide) (by decide))
  · exact exactly keyed_typeExpression keyed_furnished keyed_commented
  · exact (generic _ _ (keyed_generic [note])).1.trans (by decide)

theorem comments_show_in_text :
    TypeExpression (keyed []) ∧
      Commented (.typeParameter :: openBrackets) (keyed []) (keyed [note]) ∧
      (renderedType (keyed [])).text = "Dict[str]".toList ∧
      (renderedType (keyed [note])).text = "Dict[# note, str]".toList :=
  ⟨keyed_typeExpression, keyed_commented, by decide, by decide⟩

end DocHarvest.Extract
