import DocHarvest.Proofs.Extract.Signatures

/-!
Decorators and the flags of a function.

A decorator has a name, and a call of a decorator has the name of what is called.  The flags of a
function are set by these names, so a call sets the flag of the bare name that it calls in the end.
-/

namespace DocHarvest.Extract

open Program (Kind Tree)

/-! ### Names of decorators -/

/-- The tree is a name and nothing else. -/
structure Bare (name : List Char) (tree : Tree) : Prop where
  kind : tree.kind = .identifier
  text : tree.text = name

/-- The tree is a call of a bare name, or a call of what such a call gives, and so on. -/
inductive Calls (name : List Char) : Tree → Prop where
  | name {tree callee : Tree} : tree.kind = .call → Tree.part? tree .callee = some callee →
      Bare name callee → Calls name tree
  | result {tree callee : Tree} : tree.kind = .call → Tree.part? tree .callee = some callee →
      Calls name callee → Calls name tree

instance (name : List Char) (tree : Tree) : Decidable (Bare name tree) :=
  decidable_of_iff (tree.kind = .identifier ∧ tree.text = name)
    ⟨fun ⟨kind, text⟩ => ⟨kind, text⟩, fun bare => ⟨bare.kind, bare.text⟩⟩

theorem Calls.kind {name : List Char} {tree : Tree} (calls : Calls name tree) :
    tree.kind = .call := by
  cases calls with
  | name call _callee _bare => exact call
  | result call _callee _calls => exact call

section Names

variable {name : List Char} {tree : Tree}

theorem elision_ne (dotless : '.' ∉ name) : elision ≠ name := by
  intro same
  rw [← same] at dotless
  exact dotless (by decide)

theorem memberName_ne (dotless : '.' ∉ name) (object : Option (List Char)) :
    memberName tree object ≠ name := by
  intro same
  unfold memberName at same
  rw [← same] at dotless
  exact dotless (List.mem_append_right _ List.mem_cons_self)

theorem calls_iff_of_callee {callee : Tree} (call : tree.kind = .call)
    (found : Tree.part? tree .callee = some callee) :
    Calls name tree ↔ Bare name callee ∨ Calls name callee := by
  constructor
  · intro calls
    cases calls with
    | name _call same bare =>
        obtain rfl := Option.some.inj (same.symm.trans found)
        exact Or.inl bare
    | result _call same calls =>
        obtain rfl := Option.some.inj (same.symm.trans found)
        exact Or.inr calls
  · intro inner
    rcases inner with bare | calls
    · exact .name call found bare
    · exact .result call found calls

theorem not_calls_of_no_callee (missing : Tree.part? tree .callee = none) : ¬ Calls name tree := by
  intro calls
  cases calls with
  | name _call found _bare =>
      rw [missing] at found
      cases found
  | result _call found _calls =>
      rw [missing] at found
      cases found

/-- A name without dots is that of a bare name, or of calls of one. -/
theorem decoratorName_eq_iff (dotless : '.' ∉ name) :
    decoratorName tree = name ↔ Bare name tree ∨ Calls name tree := by
  induction tree using Grammar.Tree.byParts with
  | step tree ih =>
      by_cases call : tree.kind = .call
      · have other : ¬ Bare name tree := by
          intro bare
          rw [bare.kind] at call
          cases call
        rw [decoratorName_call call, or_iff_right other]
        cases found : Tree.part? tree .callee with
        | none => exact iff_of_false (elision_ne dotless) (not_calls_of_no_callee found)
        | some callee =>
            rw [calls_iff_of_callee call found]
            exact ih callee (mem_parts_of_part? found)
      · have apart : ¬ Calls name tree := fun calls => call calls.kind
        rw [or_iff_left apart]
        by_cases identifier : tree.kind = .identifier
        · rw [decoratorName_name (Or.inl identifier), dottedName_identifier identifier]
          exact ⟨fun text => ⟨identifier, text⟩, Bare.text⟩
        · refine iff_of_false ?_ fun bare => identifier bare.kind
          by_cases access : tree.kind = .attributeAccess
          · rw [decoratorName_name (Or.inr access), dottedName_attribute access]
            exact memberName_ne dotless _
          · rw [decoratorName_other (by simp [identifier, access, call])]
            exact elision_ne dotless

end Names

/-! ### Flags -/

/-- The decorators in front of a definition, in source order. -/
def decoratorsIn (tree : Tree) : List Tree :=
  (Tree.shown tree).filter fun part => part.kind == .decorator

/-- What the decorators in front of a definition apply, in source order. -/
def decoratorExpressions (tree : Tree) : List Tree :=
  (decoratorsIn tree).filterMap fun decorator => (Tree.named decorator).head?

/-- The text that stands for a decorator in the record of a function. -/
def decoratorText (decorator : Tree) : String :=
  String.ofList (((Tree.named decorator).head?.map decoratorName).getD elision)

/-- The names of decorators that set a flag, with the flags. -/
def methodFlags : List (String × (FunctionDoc → Bool)) :=
  [("staticmethod", FunctionDoc.isStaticMethod), ("classmethod", FunctionDoc.isClassMethod),
    ("property", FunctionDoc.isProperty)]

theorem decorators_eq (tree : Tree) : decorators tree = (decoratorsIn tree).map decoratorText := by
  unfold decorators decoratorsIn
  refine List.map_congr_left ?_
  intro decorator _member
  unfold decoratorText
  cases Tree.named decorator with
  | nil => rfl
  | cons expression _others => rfl

theorem contains_decorators {name : String} (dotless : '.' ∉ name.toList) (tree : Tree) :
    (decorators tree).contains name = true ↔
      ∃ expression ∈ decoratorExpressions tree,
        Bare name.toList expression ∨ Calls name.toList expression := by
  rw [List.contains_iff_mem, decorators_eq, List.mem_map]
  unfold decoratorExpressions decoratorText
  constructor
  · intro ⟨decorator, member, same⟩
    have text := congrArg String.toList same
    rw [String.toList_ofList] at text
    cases found : (Tree.named decorator).head? with
    | none =>
        rw [found] at text
        exact absurd text (elision_ne dotless)
    | some expression =>
        rw [found] at text
        exact ⟨expression, List.mem_filterMap.mpr ⟨decorator, member, found⟩,
          (decoratorName_eq_iff dotless).mp text⟩
  · intro ⟨expression, member, named⟩
    obtain ⟨decorator, inside, found⟩ := List.mem_filterMap.mp member
    refine ⟨decorator, inside, ?_⟩
    rw [found]
    show String.ofList (decoratorName expression) = name
    rw [(decoratorName_eq_iff dotless).mpr named, String.ofList_toList]

/-- Nothing that is set later changes the decorators or the flags. -/
theorem function_flags (style : Style) (definition : Tree) (names : List String) :
    (function style definition names).decorators = names ∧
      ∀ flag ∈ methodFlags, flag.2 (function style definition names) = names.contains flag.1 := by
  have fields : (function style definition names).decorators = names ∧
      (function style definition names).isStaticMethod = names.contains "staticmethod" ∧
      (function style definition names).isClassMethod = names.contains "classmethod" ∧
      (function style definition names).isProperty = names.contains "property" := by
    unfold function
    extract_lets signature plain returning
    have kept : returning.decorators = names ∧
        returning.isStaticMethod = names.contains "staticmethod" ∧
        returning.isClassMethod = names.contains "classmethod" ∧
        returning.isProperty = names.contains "property" := by
      unfold returning
      split
      · exact ⟨rfl, rfl, rfl, rfl⟩
      · exact ⟨rfl, rfl, rfl, rfl⟩
    split
    · split
      · exact kept
      · exact kept
    · exact kept
  unfold methodFlags
  rw [List.forall_mem_cons, List.forall_mem_cons, List.forall_mem_singleton]
  exact fields

theorem names_of_decorated {tree definition : Tree} {names : List String}
    (decorated : tree.kind = .decoratedDefinition)
    (found : functionDefinition? tree = some (definition, names)) : names = decorators tree := by
  unfold functionDefinition? at found
  simp only [decorated] at found
  split at found
  · split at found
    · exact (Prod.mk.inj (Option.some.inj found)).2.symm
    · cases found
  · cases found

/-- A function has one name for each decorator.  Each flag is set exactly if a decorator is the
bare name of the flag, or calls of it. -/
theorem flags_of_decorators (style : Style) {tree definition : Tree} {names : List String}
    (decorated : tree.kind = .decoratedDefinition)
    (found : functionDefinition? tree = some (definition, names)) :
    (function style definition names).decorators = (decoratorsIn tree).map decoratorText ∧
      ∀ flag ∈ methodFlags, flag.2 (function style definition names) = true ↔
        ∃ expression ∈ decoratorExpressions tree,
          Bare flag.1.toList expression ∨ Calls flag.1.toList expression := by
  obtain rfl := names_of_decorated decorated found
  obtain ⟨same, flags⟩ := function_flags style definition (decorators tree)
  refine ⟨same.trans (decorators_eq tree), ?_⟩
  intro flag member
  have dotless : ∀ flag ∈ methodFlags, '.' ∉ flag.1.toList := by decide
  rw [flags flag member]
  exact contains_decorators (dotless flag member) tree

/-- The function `def run(): pass` under decorators with some expressions. -/
def decoratedRun (expressions : List Tree) : Tree :=
  .node none .decoratedDefinition
    (expressions.map (fun expression => .node none .decorator [mark "@", expression]) ++
      [.node (some .definition) .functionDefinition
        [mark "def", (bareLeaf .identifier "run").inRole (some .name),
          .node (some .parameters) .parameters [mark "(", mark ")"], mark ":",
          .node (some .body) .block [.node none .passStatement [mark "pass"]]]])

/-- The attribute `run.property`. -/
def attributeProperty : Tree :=
  .node none .attributeAccess
    [(bareLeaf .identifier "run").inRole (some .object), mark ".",
      (bareLeaf .identifier "property").inRole (some .member)]

/-- The call `property()`. -/
def calledProperty : Tree :=
  .node none .call
    [(bareLeaf .identifier "property").inRole (some .callee),
      .node none .argumentList [mark "(", mark ")"]]

theorem flags_of_decorators_attribute :
    ∃ definition names,
      functionDefinition? (decoratedRun [attributeProperty, bareLeaf .identifier "classmethod"]) =
        some (definition, names) ∧
      (function .google definition names).decorators = ["run.property", "classmethod"] ∧
      (function .google definition names).isClassMethod = true ∧
      (function .google definition names).isProperty = false := by
  have found : ∃ definition names,
      functionDefinition? (decoratedRun [attributeProperty, bareLeaf .identifier "classmethod"]) =
        some (definition, names) := ⟨_, _, rfl⟩
  obtain ⟨definition, names, found⟩ := found
  obtain ⟨texts, flags⟩ := flags_of_decorators .google rfl found
  refine ⟨definition, names, found, texts.trans (by decide), ?_, ?_⟩
  · apply (flags ("classmethod", FunctionDoc.isClassMethod) (by simp [methodFlags])).mpr
    exact ⟨bareLeaf .identifier "classmethod", List.mem_cons_of_mem attributeProperty
      List.mem_cons_self, Or.inl (by decide)⟩
  · rw [Bool.eq_false_iff]
    intro flagged
    have apart : ∀ expression ∈ decoratorExpressions
        (decoratedRun [attributeProperty, bareLeaf .identifier "classmethod"]),
        ¬ Bare "property".toList expression ∧ expression.kind ≠ .call := by decide
    have listed : ("property", FunctionDoc.isProperty) ∈ methodFlags := by simp [methodFlags]
    obtain ⟨expression, member, bare | calls⟩ := (flags _ listed).mp flagged
    · exact (apart expression member).1 bare
    · exact (apart expression member).2 calls.kind

/-- A call sets the flag of what it calls. -/
theorem called_property_flagged :
    (∃ definition names,
      functionDefinition? (decoratedRun [calledProperty]) = some (definition, names) ∧
        (function .google definition names).isProperty = true) ∧
      ∀ expression ∈ decoratorExpressions (decoratedRun [calledProperty]),
        ¬ Bare "property".toList expression := by
  refine ⟨⟨_, _, rfl, ?_⟩, by decide⟩
  rfl

end DocHarvest.Extract
