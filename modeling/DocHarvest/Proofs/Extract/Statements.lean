import Mathlib.Data.List.Forall2
import DocHarvest.Extract.Source
import DocHarvest.Proofs.Extract.Signatures

/-!
What a tree says as a whole.

A tree with a mark of the parser is refused, and so is one with a statement of the second version of
the language, however deep it stands; the first of them in the text is the one that is told.  Any
other tree gives one record for each definition among its statements, in source order, and nothing
else.
-/

namespace DocHarvest.Extract

open Program (Kind Role Tree Parser)
open Grammar.Tree (nodes InOrder)

theorem isLegacyKind_iff {kind : Kind} :
    isLegacyKind kind = true ↔ kind = .printStatement ∨ kind = .execStatement := by
  simp [isLegacyKind, legacyKinds]

/-! ### The first node of some kinds -/

/-- A node of some kinds that no other one begins before. -/
structure First (sought : Kind → Bool) (tree found : Tree) : Prop where
  inside : found ∈ nodes tree
  kind : sought found.kind = true
  first : ∀ other ∈ nodes tree, sought other.kind = true → found.start ≤ other.start

/-- Nothing that is sought stands inside a part that is not searched. -/
def Searchable (searched sought : Kind → Bool) (tree : Tree) : Prop :=
  ∀ mark ∈ nodes tree, searched mark.kind = false →
    ∀ inner ∈ nodes mark, sought inner.kind = false

instance (searched sought : Kind → Bool) (tree : Tree) :
    Decidable (Searchable searched sought tree) :=
  inferInstanceAs (Decidable (∀ mark ∈ nodes tree, searched mark.kind = false →
    ∀ inner ∈ nodes mark, sought inner.kind = false))

theorem findSome?_filter {α β : Type} {list : List α} {keeps : α → Bool} {short long : α → Option β}
    (kept : ∀ entry ∈ list, keeps entry = true → short entry = long entry)
    (passed : ∀ entry ∈ list, keeps entry = false → long entry = none) :
    (list.filter keeps).findSome? short = list.findSome? long := by
  induction list with
  | nil => rfl
  | cons entry rest ih =>
      have later := ih (fun other member => kept other (List.mem_cons_of_mem _ member))
        (fun other member => passed other (List.mem_cons_of_mem _ member))
      rw [List.filter_cons, List.findSome?_cons]
      cases keeping : keeps entry with
      | true =>
          rw [if_pos rfl, List.findSome?_cons, kept entry List.mem_cons_self keeping, later]
      | false =>
          rw [if_neg Bool.false_ne_true, passed entry List.mem_cons_self keeping, later]

section Search

variable {searched sought : Kind → Bool} {tree part found : Tree}

theorem Searchable.of_part (searchable : Searchable searched sought tree)
    (member : part ∈ tree.parts) : Searchable searched sought part :=
  fun mark inside => searchable mark (Grammar.Tree.mem_nodes_of_part member inside)

theorem firstOf?_eq (searched sought : Kind → Bool) (tree : Tree) :
    firstOf? searched sought tree =
      if sought tree.kind then some tree
      else (tree.parts.filter fun part => searched part.kind).findSome?
        (firstOf? searched sought) := by
  unfold firstOf?
  rw [Grammar.Tree.fold_eq, List.filter_map, List.findSome?_map]
  rfl

theorem firstOf?_some (result : firstOf? searched sought tree = some found) :
    found ∈ nodes tree ∧ sought found.kind = true := by
  induction tree using Grammar.Tree.byParts with
  | step tree ih =>
      rw [firstOf?_eq] at result
      split at result
      · next kind =>
          cases result
          exact ⟨found.self_mem_nodes, kind⟩
      · obtain ⟨part, member, inner⟩ := List.exists_of_findSome?_eq_some result
        have here := List.mem_of_mem_filter member
        obtain ⟨inside, kind⟩ := ih part here inner
        exact ⟨Grammar.Tree.mem_nodes_of_part here inside, kind⟩

/-- The search passes over some parts, but there is nothing to be found in them. -/
theorem firstOf?_eq_find? (searchable : Searchable searched sought tree) :
    firstOf? searched sought tree = (nodes tree).find? fun node => sought node.kind := by
  induction tree using Grammar.Tree.byParts with
  | step tree ih =>
      rw [firstOf?_eq, Grammar.Tree.nodes_eq, List.find?_cons, List.find?_flatMap]
      cases sought tree.kind with
      | true => rfl
      | false =>
          refine findSome?_filter ?_ ?_
          · intro part member _searched
            exact ih part member (searchable.of_part member)
          · intro part member passed
            rw [List.find?_eq_none]
            intro inner inside
            have absent := searchable part
              (Grammar.Tree.mem_nodes_of_part member part.self_mem_nodes) passed inner inside
            rw [absent]
            exact Bool.false_ne_true

theorem firstOf?_first (ordered : InOrder tree) (searchable : Searchable searched sought tree)
    (result : firstOf? searched sought tree = some found) : First sought tree found := by
  rw [firstOf?_eq_find? searchable, List.find?_eq_some_iff_append] at result
  obtain ⟨kind, before, behind, split, others⟩ := result
  have sorted := ordered.nodes_sorted
  rw [split, List.pairwise_append, List.pairwise_cons] at sorted
  refine ⟨by rw [split]; simp, kind, ?_⟩
  intro other member same
  rw [split] at member
  rcases List.mem_append.mp member with early | late
  · have differs := others other early
    rw [same] at differs
    cases differs
  · rcases List.mem_cons.mp late with self | later
    · rw [self]
      exact Grammar.Place.le_refl _
    · exact sorted.2.1.1 other later

theorem firstOf?_eq_none (searchable : Searchable searched sought tree) :
    firstOf? searched sought tree = none ↔ ∀ node ∈ nodes tree, sought node.kind = false := by
  rw [firstOf?_eq_find? searchable, List.find?_eq_none]
  simp only [Bool.not_eq_true]

end Search

/-! ### Marks of a parser -/

theorem hasFault_eq (tree : Tree) :
    hasFault tree = (tree.kind.isFault || tree.parts.any hasFault) := by
  unfold hasFault
  rw [Grammar.Tree.fold_eq, List.any_map]
  rfl

theorem hasFault_iff {tree : Tree} :
    hasFault tree = true ↔ ∃ node ∈ nodes tree, node.kind.isFault = true := by
  induction tree using Grammar.Tree.byParts with
  | step tree ih =>
      rw [hasFault_eq, Bool.or_eq_true, List.any_eq_true, Grammar.Tree.nodes_eq]
      simp only [List.mem_cons, List.mem_flatMap, exists_eq_or_imp]
      refine or_congr_right ?_
      constructor
      · rintro ⟨part, member, faulty⟩
        obtain ⟨node, inside, fault⟩ := (ih part member).mp faulty
        exact ⟨node, ⟨part, member, inside⟩, fault⟩
      · rintro ⟨node, ⟨part, member, inside⟩, fault⟩
        exact ⟨part, member, (ih part member).mpr ⟨node, inside, fault⟩⟩

theorem firstFault?_eq (tree : Tree) :
    firstFault? tree =
      if tree.kind.isFault then some tree
      else if hasFault tree then (Tree.shown tree).findSome? firstFault? else none := by
  unfold firstFault?
  rw [Grammar.Tree.fold_eq, List.filter_map, List.findSome?_map]
  rfl

/-- Passing over trees without marks saves time and changes nothing. -/
theorem firstFault?_eq_firstOf? (tree : Tree) :
    firstFault? tree = firstOf? (fun kind => !kind.isHidden) Kind.isFault tree := by
  induction tree using Grammar.Tree.byParts with
  | step tree ih =>
      cases faulty : hasFault tree with
      | true =>
          have parts := List.map_congr_left (l := Tree.shown tree) fun part member =>
            ih part (List.mem_of_mem_filter member)
          have first := congrArg (List.findSome? id) parts
          rw [List.findSome?_map, List.findSome?_map, Function.id_comp, Function.id_comp] at first
          rw [firstFault?_eq, firstOf?_eq, faulty, if_pos rfl, first]
          rfl
      | false =>
          have unmarked : tree.kind.isFault = false := by
            rw [hasFault_eq, Bool.or_eq_false_iff] at faulty
            exact faulty.1
          rw [firstFault?_eq, unmarked, faulty]
          cases found : firstOf? (fun kind => !kind.isHidden) Kind.isFault tree with
          | none => rfl
          | some fault =>
              rw [hasFault_iff.mpr ⟨fault, firstOf?_some found⟩] at faulty
              cases faulty

/-! ### Definitions among statements -/

/-- A statement defines something of a kind, bare or under decorators: the definition itself, and
the names of the decorators. -/
inductive Defines (kind : Kind) : (statement definition : Tree) → (names : List String) → Prop where
  | bare {definition : Tree} : definition.kind = kind → Defines kind definition definition []
  | decorated {statement definition : Tree} : statement.kind = .decoratedDefinition →
      Tree.part? statement .definition = some definition → definition.kind = kind →
      Defines kind statement definition (decorators statement)

/-- Whether a statement defines something of a kind, bare or under decorators. -/
def isDefinition (kind : Kind) (statement : Tree) : Bool :=
  statement.kind == kind || (statement.kind == .decoratedDefinition &&
    (Tree.part? statement .definition).any fun definition => definition.kind == kind)

/-- There is one record for each definition of a kind among the parts of a tree, in source order,
and it is what the definition and its decorators give. -/
def Recorded {α : Type} (kind : Kind) (record : Tree → List String → α → Prop) (parts : List Tree)
    (records : List α) : Prop :=
  List.Forall₂
    (fun statement entry =>
      ∃ definition names, Defines kind statement definition names ∧ record definition names entry)
    (parts.filter (isDefinition kind)) records

/-- A definition of a kind with the names of its decorators. -/
def definition? (kind : Kind) (tree : Tree) : Option (Tree × List String) :=
  if tree.kind = kind then some (tree, [])
  else if tree.kind = .decoratedDefinition then
    (Tree.part? tree .definition).bind fun definition =>
      if definition.kind == kind then some (definition, decorators tree) else none
  else none

theorem functionDefinition?_eq : functionDefinition? = definition? .functionDefinition := by
  funext tree
  unfold functionDefinition? definition?
  split
  · next bare => rw [if_pos bare]
  · next decorated =>
      rw [if_neg (by rw [decorated]; decide), if_pos decorated]
      cases Tree.part? tree .definition <;> rfl
  · next bare decorated => rw [if_neg bare, if_neg decorated]

theorem classDefinition?_eq : classDefinition? = definition? .classDefinition := by
  funext tree
  unfold classDefinition? definition?
  split
  · next bare => rw [if_pos bare]
  · next decorated =>
      rw [if_neg (by rw [decorated]; decide), if_pos decorated]
      cases Tree.part? tree .definition <;> rfl
  · next bare decorated => rw [if_neg bare, if_neg decorated]

section Definitions

variable {kind : Kind} {statement : Tree}

theorem definition?_eq_some (defining : isDefinition kind statement = true) :
    ∃ found, definition? kind statement = some found ∧
      Defines kind statement found.1 found.2 := by
  unfold definition?
  by_cases bare : statement.kind = kind
  · rw [if_pos bare]
    exact ⟨_, rfl, .bare bare⟩
  · unfold isDefinition at defining
    rw [Bool.or_eq_true, beq_iff_eq, Bool.and_eq_true, beq_iff_eq] at defining
    obtain ⟨decorated, inner⟩ := defining.resolve_left bare
    obtain ⟨definition, part, same⟩ := (Option.any_eq_true _ _).mp inner
    rw [if_neg bare, if_pos decorated, part, Option.bind_some, if_pos same]
    exact ⟨_, rfl, .decorated decorated part (beq_iff_eq.mp same)⟩

theorem definition?_eq_none (other : isDefinition kind statement = false) :
    definition? kind statement = none := by
  unfold isDefinition at other
  rw [Bool.or_eq_false_iff, beq_eq_false_iff_ne] at other
  unfold definition?
  rw [if_neg other.1]
  split
  · next decorated =>
      have inner := other.2
      rw [decorated, beq_self_eq_true, Bool.true_and, Option.any_eq_false] at inner
      rw [Option.bind_eq_none_iff]
      intro definition part
      rw [inner definition part, if_neg Bool.false_ne_true]
  · rfl

theorem isNamed_of_isDefinition (named : kind.isNamed = true)
    (defining : isDefinition kind statement = true) : statement.kind.isNamed = true := by
  unfold isDefinition at defining
  rw [Bool.or_eq_true, beq_iff_eq, Bool.and_eq_true, beq_iff_eq] at defining
  rcases defining with bare | decorated
  · rw [bare]
    exact named
  · rw [decorated.1]
    rfl

end Definitions

/-- Parts without names define nothing. -/
theorem filterMap_named {kind : Kind} (named : kind.isNamed = true) (tree : Tree) :
    (Tree.named tree).filterMap (definition? kind) = tree.parts.filterMap (definition? kind) := by
  unfold Tree.named
  rw [List.filterMap_filter]
  refine List.filterMap_congr ?_
  intro part _member
  split
  · rfl
  · next unnamed =>
      cases defining : isDefinition kind part with
      | true => exact absurd (isNamed_of_isDefinition named defining) unnamed
      | false => exact (definition?_eq_none defining).symm

theorem recorded_map {α : Type} {kind : Kind} {record : Tree → List String → α → Prop}
    {make : Tree × List String → α}
    (made : ∀ definition names, record definition names (make (definition, names)))
    (parts : List Tree) :
    Recorded kind record parts ((parts.filterMap (definition? kind)).map make) := by
  induction parts with
  | nil => exact .nil
  | cons statement rest ih =>
      unfold Recorded
      rw [List.filter_cons, List.filterMap_cons]
      cases defining : isDefinition kind statement with
      | true =>
          obtain ⟨found, same, defines⟩ := definition?_eq_some defining
          rw [if_pos rfl, same]
          exact .cons ⟨found.1, found.2, defines, made found.1 found.2⟩ ih
      | false =>
          rw [if_neg Bool.false_ne_true, definition?_eq_none defining]
          exact ih

/-! ### Records -/

/-- The statements in the body of a definition. -/
def bodyParts (definition : Tree) : List Tree :=
  ((Tree.part? definition .body).map Grammar.Tree.parts).getD []

/-- The record of a function. -/
structure FunctionRecord (style : Style) (definition : Tree) (names : List String)
    (record : FunctionDoc) : Prop where
  whole : record = function style definition names
  name : record.name = definedName definition
  line : record.line = definition.start.line + 1
  decorators : record.decorators = names

/-- The record of a class: its methods are the functions directly in its body. -/
structure ClassRecord (style : Style) (definition : Tree) (names : List String)
    (record : ClassDoc) : Prop where
  whole : record = classDoc style definition names
  name : record.name = definedName definition
  line : record.line = definition.start.line + 1
  decorators : record.decorators = names
  methods : Recorded .functionDefinition
    (fun inner innerNames method => ∃ plain, FunctionRecord style inner innerNames plain ∧
      method = plain.asMethod) (bodyParts definition) record.methods

/-- The record of a module: its functions and classes are those directly in it. -/
structure ModuleRecord (style : Style) (path : String) (root : Tree) (record : FileDoc) :
    Prop where
  path : record.path = path
  functions : Recorded .functionDefinition (FunctionRecord style) root.parts record.functions
  classes : Recorded .classDefinition (ClassRecord style) root.parts record.classes

section Records

variable (style : Style) (definition : Tree) (names : List String)

theorem functionRecord : FunctionRecord style definition names (function style definition names) := by
  have heading : (function style definition names).name = definedName definition ∧
      (function style definition names).line = definition.start.line + 1 ∧
      (function style definition names).decorators = names := by
    unfold function
    extract_lets signature plain returning
    have kept : returning.name = definedName definition ∧
        returning.line = definition.start.line + 1 ∧ returning.decorators = names := by
      unfold returning
      split <;> exact ⟨rfl, rfl, rfl⟩
    split
    · split
      · exact kept
      · exact kept
    · exact kept
  exact ⟨rfl, heading.1, heading.2.1, heading.2.2⟩

theorem functions_named (tree : Tree) :
    functions style (Tree.named tree) =
      (tree.parts.filterMap (definition? .functionDefinition)).map
        fun found => function style found.1 found.2 := by
  unfold functions
  rw [functionDefinition?_eq, filterMap_named rfl]

theorem classRecord : ClassRecord style definition names (classDoc style definition names) := by
  refine ⟨rfl, rfl, rfl, rfl, ?_⟩
  unfold bodyParts classDoc
  cases Tree.part? definition .body with
  | none => exact .nil
  | some block =>
      show Recorded _ _ block.parts ((functions style (Tree.named block)).map FunctionDoc.asMethod)
      rw [functions_named, List.map_map]
      apply recorded_map
      intro inner innerNames
      exact ⟨_, functionRecord style inner innerNames, rfl⟩

theorem moduleRecord (path : String) (root : Tree) :
    ModuleRecord style path root (moduleDoc style path root) := by
  refine ⟨rfl, ?_, ?_⟩
  · show Recorded _ _ _ (functions style (Tree.named root))
    rw [functions_named]
    exact recorded_map (functionRecord style) root.parts
  · show Recorded _ _ _ (classes style (Tree.named root))
    unfold classes
    rw [classDefinition?_eq, filterMap_named rfl]
    exact recorded_map (classRecord style) root.parts

end Records

/-! ### Trees as a whole -/

/-- What holds of every tree of a text that a parser can read: its parts are in order, none is a
mark of the parser, and no statement stands inside a part that has no name. -/
structure SourceTree (tree : Tree) : Prop where
  inOrder : InOrder tree
  sound : ∀ node ∈ nodes tree, node.kind.isFault = false
  searchable : Searchable Kind.isNamed isLegacyKind tree

instance (tree : Tree) : Decidable (SourceTree tree) :=
  decidable_of_iff
    (InOrder tree ∧ (∀ node ∈ nodes tree, node.kind.isFault = false) ∧
      Searchable Kind.isNamed isLegacyKind tree)
    ⟨fun ⟨inOrder, sound, searchable⟩ => ⟨inOrder, sound, searchable⟩,
      fun source => ⟨source.inOrder, source.sound, source.searchable⟩⟩

theorem ofTree_of_sound (style : Style) (path : String) {tree : Tree}
    (sound : ∀ node ∈ nodes tree, node.kind.isFault = false) :
    ofTree style path tree =
      match legacyStatement? tree with
      | some statement => .error (malformed path statement)
      | none => .ok (moduleDoc style path tree) := by
  have unmarked : hasFault tree = false := by
    rw [Bool.eq_false_iff]
    intro faulty
    obtain ⟨node, inside, fault⟩ := hasFault_iff.mp faulty
    rw [sound node inside] at fault
    cases fault
  rw [ofTree, unmarked]
  exact if_neg Bool.false_ne_true

/-- A tree in which the parser has marked a place is refused, and the first mark is told, as long as
the marks are shown. -/
theorem ofTree_faults (style : Style) (path : String) {tree : Tree} (ordered : InOrder tree)
    (shown : Searchable (fun kind => !kind.isHidden) Kind.isFault tree)
    (faulty : ∃ node ∈ nodes tree, node.kind.isFault = true) :
    ∃ fault, First Kind.isFault tree fault ∧
      ofTree style path tree = .error (malformed path fault) := by
  cases found : firstFault? tree with
  | none =>
      obtain ⟨node, inside, fault⟩ := faulty
      rw [firstFault?_eq_firstOf?, firstOf?_eq_none shown] at found
      rw [found node inside] at fault
      cases fault
  | some fault =>
      refine ⟨fault, firstOf?_first ordered shown ?_, ?_⟩
      · rw [← firstFault?_eq_firstOf?, found]
      · rw [ofTree, if_pos (hasFault_iff.mpr faulty), found, Option.getD_some]

theorem describe_of_legacy {tree : Tree} (legacy : isLegacyKind tree.kind = true) :
    describe tree = describeText tree.text := by
  unfold describe
  rcases isLegacyKind_iff.mp legacy with kind | kind <;> rw [kind]

/-- A tree is refused exactly when a statement of the second version stands anywhere in it, and
the place that is told is that of the first one.  Any other tree gives the record of its module. -/
theorem ofTree_statements (style : Style) (path : String) {tree : Tree}
    (source : SourceTree tree) :
    ((∃ line column detail,
        ofTree style path tree = .error (.malformed path line column detail)) ↔
      ∃ node ∈ nodes tree, isLegacyKind node.kind = true) ∧
    (∀ error, ofTree style path tree = .error error →
      ∃ statement, First isLegacyKind tree statement ∧
        error = .malformed path (statement.start.line + 1) (statement.start.column + 1)
          (describeText statement.text)) ∧
    ((∀ node ∈ nodes tree, isLegacyKind node.kind = false) →
      ∃ record, ofTree style path tree = .ok record ∧ ModuleRecord style path tree record) ∧
    ∀ (parser : Parser) (text : String), parser.refused? = none →
      parser.parse text.toList = some tree →
      extract parser style path text = ofTree style path tree := by
  have whole (parser : Parser) (text : String) (usable : parser.refused? = none)
      (read : parser.parse text.toList = some tree) :
      extract parser style path text = ofTree style path tree := by
    unfold extract
    rw [usable]
    simp only [read]
  rw [ofTree_of_sound style path source.sound] at whole ⊢
  cases found : legacyStatement? tree with
  | none =>
      have modern := (firstOf?_eq_none source.searchable).mp found
      rw [found] at whole
      refine ⟨⟨nofun, ?_⟩, nofun, fun _none => ⟨_, rfl, moduleRecord style path tree⟩, whole⟩
      rintro ⟨node, member, legacy⟩
      rw [modern node member] at legacy
      cases legacy
  | some statement =>
      have first := firstOf?_first source.inOrder source.searchable found
      rw [found] at whole
      refine ⟨⟨fun _error => ⟨statement, first.inside, first.kind⟩, fun _some => ⟨_, _, _, rfl⟩⟩,
        ?_, ?_, whole⟩
      · intro error same
        cases same
        exact ⟨statement, first, by rw [malformed, describe_of_legacy first.kind]⟩
      · intro modern
        have legacy := first.kind
        rw [modern statement first.inside] at legacy
        cases legacy

/-! ### A module with nested blocks -/

/-- A terminal at a line and column counted from zero. -/
def terminal (line column : Nat) (kind : Kind) (text : String) : Tree :=
  .leaf none kind [] text.toList ⟨line, column⟩

/-- The loop `while 1:` with `print x` and `exec x` below it, from line two of a module. -/
def legacyLoop : Tree :=
  .node none .whileStatement
    [terminal 1 4 (.literal "while") "while", terminal 1 10 .integer "1",
      terminal 1 11 (.literal ":") ":",
      .node (some .body) .block
        [.node none .printStatement
          [terminal 2 8 (.literal "print") "print", terminal 2 14 .identifier "x"],
        .node none .execStatement
          [terminal 3 8 (.literal "exec") "exec", terminal 3 13 .identifier "x"]]]

/-- The module `def run():` with one statement in the body of the function. -/
def moduleOf (statement : Tree) : Tree :=
  .node none .sourceFile
    [.node none .functionDefinition
      [terminal 0 0 (.literal "def") "def", (terminal 0 4 .identifier "run").inRole (some .name),
        .node (some .parameters) .parameters
          [terminal 0 7 (.literal "(") "(", terminal 0 8 (.literal ")") ")"],
        terminal 0 9 (.literal ":") ":", .node (some .body) .block [statement]]]

/-- The statement `pass` in line two. -/
def modernStatement : Tree :=
  .node none .passStatement [terminal 1 4 (.literal "pass") "pass"]

theorem ofTree_statements_nested :
    SourceTree (moduleOf legacyLoop) ∧
      (∃ detail, ofTree .google "m.py" (moduleOf legacyLoop) =
        .error (.malformed "m.py" 3 9 detail)) ∧
      SourceTree (moduleOf modernStatement) ∧
      ∃ record, ofTree .google "m.py" (moduleOf modernStatement) = .ok record ∧
        record.functions.length = 1 ∧ record.classes.length = 0 := by
  have legacySource : SourceTree (moduleOf legacyLoop) := by decide
  have modernSource : SourceTree (moduleOf modernStatement) := by decide
  obtain ⟨refused, told, _modern, _whole⟩ := ofTree_statements .google "m.py" legacySource
  obtain ⟨_refused, _told, recorded, _whole⟩ := ofTree_statements .google "m.py" modernSource
  refine ⟨legacySource, ?_, modernSource, ?_⟩
  · obtain ⟨line, column, detail, same⟩ := refused.mpr (by decide)
    obtain ⟨statement, first, place⟩ := told _ same
    have early : statement.start ≤ ⟨2, 8⟩ := by
      have other : ∃ node ∈ nodes (moduleOf legacyLoop),
          isLegacyKind node.kind = true ∧ node.start = ⟨2, 8⟩ := by decide
      obtain ⟨node, inside, legacy, start⟩ := other
      rw [← start]
      exact first.first node inside legacy
    have late : ⟨2, 8⟩ ≤ statement.start := by
      have all : ∀ node ∈ nodes (moduleOf legacyLoop),
          isLegacyKind node.kind = true → ⟨2, 8⟩ ≤ node.start := by decide
      exact all statement first.inside first.kind
    rw [place, Grammar.Place.le_antisymm early late] at same
    exact ⟨_, same⟩
  · obtain ⟨record, same, shape⟩ := recorded (by decide)
    have functions := shape.functions.length_eq
    have classes := shape.classes.length_eq
    exact ⟨record, same, functions.symm.trans (by decide), classes.symm.trans (by decide)⟩

end DocHarvest.Extract
