import DocHarvest.Proofs.Extract.CommentedTrees

/-!
Comments inside the brackets of annotations.

An annotation is rendered past the comments in its lists, tuples and subscripts.  A comment among
type arguments is rendered as if it were one of them, so the annotation gets longer.
-/

namespace DocHarvest.Extract

open Program (Kind Role Tree)

/-! ### Annotations -/

/-- The kinds of brackets that are read past comments. -/
def openBrackets : List Kind :=
  [.parameters, .argumentList, .list, .tuple, .subscript]

/-- A generic type with its name and the list of its arguments. -/
structure IsGeneric (tree name arguments : Tree) : Prop where
  kind : tree.kind = .genericType
  pair : Tree.named tree = [name, arguments]
  listed : arguments.kind = .typeParameter

/-- Annotations built from words, names with attributes, lists, tuples, subscripts and generic
types. -/
inductive TypeExpression : Tree → Prop where
  | words {tree : Tree} : isComposed tree.kind = false → TypeExpression tree
  | wrapped {tree inner : Tree} : tree.kind = .type → Tree.named tree = [inner] →
      TypeExpression inner → TypeExpression tree
  | access {tree : Tree} : tree.kind = .attributeAccess → TypeExpression tree
  | subscript {tree : Tree} : tree.kind = .subscript →
      (∀ part ∈ partsIn tree .value ++ partsIn tree .index, TypeExpression part) →
      TypeExpression tree
  | generic {tree name arguments : Tree} : tree.kind = .genericType →
      Tree.named tree = [name, arguments] → arguments.kind = .typeParameter → TypeExpression name →
      (∀ part ∈ Tree.named arguments, TypeExpression part) → TypeExpression tree
  | elements {tree : Tree} : tree.kind = .list ∨ tree.kind = .tuple →
      (∀ part ∈ elements tree, TypeExpression part) → TypeExpression tree

theorem isComposed_of_elements {tree : Tree} (kind : tree.kind = .list ∨ tree.kind = .tuple) :
    isComposed tree.kind = true := by
  rcases kind with list | tuple
  · rw [list]
    rfl
  · rw [tuple]
    rfl

/-! ### Comments that are rendered -/

/-- The parts from which the text of an annotation is made. -/
def renderedParts (tree : Tree) : List Tree :=
  match tree.kind with
  | .type | .genericType | .typeParameter => Tree.named tree
  | .subscript => (Tree.part? tree .value).toList ++ partsIn tree .index
  | .list | .tuple => elements tree
  | _ => []

/-- A comment stands among type arguments that are rendered. -/
inductive ShowsComment : Tree → Prop where
  | argument {tree comment : Tree} : tree.kind = .typeParameter → comment ∈ Tree.named tree →
      comment.kind = .comment → ShowsComment tree
  | inside {tree part : Tree} : part ∈ renderedParts tree → ShowsComment part → ShowsComment tree

/-- Comments may be put in among type arguments, and one is rendered. -/
def Noticed (brackets : List Kind) (tree : Tree) : Prop :=
  brackets.contains .typeParameter = true ∧ ShowsComment tree

/-- No list of type arguments is empty, and no comment is rendered among them. -/
structure Furnished (tree : Tree) : Prop where
  argument : ∀ node ∈ Grammar.Tree.nodes tree, node.kind = .typeParameter → Tree.named node ≠ []
  plain : ¬ShowsComment tree

section Rendered

variable {brackets : List Kind} {tree part : Tree}

theorem mem_parts_of_rendered (member : part ∈ renderedParts tree) : part ∈ tree.parts := by
  unfold renderedParts at member
  split at member
  · exact (List.mem_filter.mp member).1
  · exact (List.mem_filter.mp member).1
  · exact (List.mem_filter.mp member).1
  · rcases List.mem_append.mp member with value | index
    · exact mem_parts_of_part? (Option.mem_toList.mp value)
    · exact (List.mem_filter.mp (List.mem_filter.mp index).1).1
  · exact (List.mem_filter.mp (List.mem_filter.mp member).1).1
  · exact (List.mem_filter.mp (List.mem_filter.mp member).1).1
  · cases member

theorem Furnished.rendered (furnished : Furnished tree) (member : part ∈ renderedParts tree) :
    Furnished part where
  argument node inside :=
    furnished.argument node (Grammar.Tree.mem_nodes_of_part (mem_parts_of_rendered member) inside)
  plain shows := furnished.plain (.inside member shows)

/-- A tree without comments shows none. -/
theorem not_showsComment_of_uncommented
    (uncommented : ∀ node ∈ Grammar.Tree.nodes tree, node.kind ≠ .comment) :
    ¬ShowsComment tree := by
  intro shows
  induction shows with
  | argument _listed member comment =>
      have inside := Grammar.Tree.mem_nodes_of_part (List.mem_filter.mp member).1
        (Grammar.Tree.self_mem_nodes _)
      exact uncommented _ inside comment
  | inside member _inner ih =>
      exact ih fun node inside =>
        uncommented node (Grammar.Tree.mem_nodes_of_part (mem_parts_of_rendered member) inside)

theorem renderedParts_words (words : isComposed tree.kind = false) : renderedParts tree = [] := by
  unfold renderedParts
  split
  all_goals first | rfl | (next kind => rw [kind] at words; cases words)

theorem renderedParts_named
    (kind : tree.kind = .type ∨ tree.kind = .genericType ∨ tree.kind = .typeParameter) :
    renderedParts tree = Tree.named tree := by
  rcases kind with kind | kind | kind
  all_goals rw [renderedParts, kind]

theorem renderedParts_attribute (kind : tree.kind = .attributeAccess) :
    renderedParts tree = [] := by
  rw [renderedParts, kind]

theorem renderedParts_subscript (kind : tree.kind = .subscript) :
    renderedParts tree = (Tree.part? tree .value).toList ++ partsIn tree .index := by
  rw [renderedParts, kind]

theorem renderedParts_elements (kind : tree.kind = .list ∨ tree.kind = .tuple) :
    renderedParts tree = elements tree := by
  rcases kind with kind | kind
  all_goals rw [renderedParts, kind]

theorem noticed_iff (kind : tree.kind ≠ .typeParameter) :
    Noticed brackets tree ↔ ∃ part ∈ renderedParts tree, Noticed brackets part := by
  constructor
  · rintro ⟨admitted, shows⟩
    cases shows with
    | argument listed _member _comment => exact absurd listed kind
    | inside member inner => exact ⟨_, member, admitted, inner⟩
  · rintro ⟨part, member, admitted, inner⟩
    exact ⟨admitted, .inside member inner⟩

theorem noticed_arguments (listed : tree.kind = .typeParameter) :
    Noticed brackets tree ↔
      ∃ part ∈ Tree.named tree, brackets.contains .typeParameter = true ∧ part.kind = .comment ∨
        Noticed brackets part := by
  constructor
  · rintro ⟨admitted, shows⟩
    cases shows with
    | argument _listed member comment => exact ⟨_, member, Or.inl ⟨admitted, comment⟩⟩
    | inside member inner =>
        rw [renderedParts_named (Or.inr (Or.inr listed))] at member
        exact ⟨_, member, Or.inr ⟨admitted, inner⟩⟩
  · rintro ⟨part, member, ⟨admitted, comment⟩ | ⟨admitted, inner⟩⟩
    · exact ⟨admitted, .argument listed member comment⟩
    · rw [← renderedParts_named (Or.inr (Or.inr listed))] at member
      exact ⟨admitted, .inside member inner⟩

theorem not_noticed (kind : tree.kind ≠ .typeParameter) (none : renderedParts tree = []) :
    ¬Noticed brackets tree := by
  rw [noticed_iff kind, none]
  rintro ⟨part, member, _noticed⟩
  cases member

end Rendered

/-! ### Texts that get longer -/

/-- A text gets longer under a condition, and stays as it is otherwise. -/
structure Lengthens (condition : Prop) (short long : List Char) : Prop where
  same : ¬condition → long = short
  longer : condition → short.length < long.length

namespace Lengthens

variable {first second condition : Prop} {short long : List Char}

theorem of_eq (same : long = short) (never : ¬condition) : Lengthens condition short long :=
  ⟨fun _never => same, fun holds => absurd holds never⟩

theorem length_le (lengthens : Lengthens condition short long) : short.length ≤ long.length := by
  by_cases holds : condition
  · exact Nat.le_of_lt (lengthens.longer holds)
  · exact Nat.le_of_eq (congrArg List.length (lengthens.same holds)).symm

theorem congr (lengthens : Lengthens first short long) (same : condition ↔ first) :
    Lengthens condition short long :=
  ⟨fun never => lengthens.same (mt same.mpr never), fun holds => lengthens.longer (same.mp holds)⟩

theorem bracketed {name otherName row otherRow : List Char} {opening closing : Char}
    (names : Lengthens first name otherName) (rows : Lengthens second row otherRow)
    (split : condition ↔ first ∨ second) :
    Lengthens condition (name ++ opening :: row ++ [closing])
      (otherName ++ opening :: otherRow ++ [closing]) := by
  constructor
  · intro never
    rw [split, not_or] at never
    rw [names.same never.1, rows.same never.2]
  · intro holds
    have nameLength := names.length_le
    have rowLength := rows.length_le
    simp only [List.length_append, List.length_cons, List.length_nil]
    rcases split.mp holds with here | here
    · have := names.longer here
      omega
    · have := rows.longer here
      omega

end Lengthens

/-- The length of texts with a comma and a space behind each. -/
def rowLength (texts : List (List Char)) : Nat :=
  texts.foldr (fun text length => text.length + 2 + length) 0

theorem rowLength_cons (text : List Char) (rest : List (List Char)) :
    rowLength (text :: rest) = text.length + 2 + rowLength rest :=
  rfl

theorem length_commaSeparated (texts : List (List Char)) :
    (commaSeparated texts).length = rowLength texts - 2 := by
  induction texts with
  | nil => rfl
  | cons text rest ih =>
      cases rest with
      | nil => simp [commaSeparated, Text.join, rowLength]
      | cons next rest =>
          have positive : 2 ≤ rowLength (next :: rest) := by
            rw [rowLength_cons]
            omega
          unfold commaSeparated Text.join at ih ⊢
          rw [List.intercalate_cons_cons, rowLength_cons]
          simp only [List.length_append, List.length_cons, List.length_nil]
          omega

namespace Interspersed

variable {related : Tree → Tree → Prop} {admits : Bool} {parts others : List Tree}
  {condition : Tree → Prop} {text : Tree → List Char}

theorem map_eq (interspersed : Interspersed related admits parts others)
    (lengthens : ∀ part ∈ parts, ∀ other, related part other →
      Lengthens (condition other) (text part) (text other))
    (noticed : admits = true → ∀ comment, comment.kind = .comment → condition comment)
    (never : ∀ other ∈ others, ¬condition other) : others.map text = parts.map text := by
  induction interspersed with
  | nil => rfl
  | @part admits part other parts others same _later ih =>
      rw [List.forall_mem_cons] at lengthens never
      rw [List.map_cons, List.map_cons, (lengthens.1 other same).same never.1,
        ih lengthens.2 noticed never.2]
  | comment kind _role _later _ih => exact absurd (noticed rfl _ kind) (never _ List.mem_cons_self)

/-- A comment among some parts is one text more, and takes up room even if it is empty. -/
theorem rowLength_le (interspersed : Interspersed related admits parts others)
    (lengthens : ∀ part ∈ parts, ∀ other, related part other →
      Lengthens (condition other) (text part) (text other)) :
    rowLength (parts.map text) ≤ rowLength (others.map text) ∧
      ((∃ other ∈ others, condition other) →
        rowLength (parts.map text) < rowLength (others.map text)) := by
  induction interspersed with
  | nil => exact ⟨Nat.le_refl _, fun ⟨_other, member, _holds⟩ => absurd member List.not_mem_nil⟩
  | @part admits part other parts others same _later ih =>
      rw [List.forall_mem_cons] at lengthens
      have here := lengthens.1 other same
      have hereLength := here.length_le
      obtain ⟨le, lt⟩ := ih lengthens.2
      rw [List.map_cons, List.map_cons, rowLength_cons, rowLength_cons]
      refine ⟨by omega, ?_⟩
      rintro ⟨found, member, holds⟩
      rcases List.mem_cons.mp member with rfl | among
      · have := here.longer holds
        omega
      · have := lt ⟨found, among, holds⟩
        omega
  | @comment comment parts others _kind _role _later ih =>
      obtain ⟨le, _lt⟩ := ih lengthens
      rw [List.map_cons, rowLength_cons]
      exact ⟨by omega, fun _found => by omega⟩

theorem lengthens (interspersed : Interspersed related admits parts others)
    (lengthens : ∀ part ∈ parts, ∀ other, related part other →
      Lengthens (condition other) (text part) (text other))
    (noticed : admits = true → ∀ comment, comment.kind = .comment → condition comment)
    (present : (∃ other ∈ others, condition other) → parts ≠ []) :
    Lengthens (∃ other ∈ others, condition other) (commaSeparated (parts.map text))
      (commaSeparated (others.map text)) := by
  constructor
  · intro never
    rw [interspersed.map_eq lengthens noticed
      fun other member holds => never ⟨other, member, holds⟩]
  · intro found
    have longer := (interspersed.rowLength_le lengthens).2 found
    have positive : 2 ≤ rowLength (parts.map text) := by
      obtain ⟨part, rest, rfl⟩ := List.exists_cons_of_ne_nil (present found)
      rw [List.map_cons, rowLength_cons]
      omega
    rw [length_commaSeparated, length_commaSeparated]
    omega

theorem lengthens_of_paired (paired : List.Forall₂ related parts others)
    (lengthens : ∀ part ∈ parts, ∀ other, related part other →
      Lengthens (condition other) (text part) (text other)) :
    Lengthens (∃ other ∈ others, condition other) (commaSeparated (parts.map text))
      (commaSeparated (others.map text)) := by
  have closed : Interspersed related false parts others := of_paired paired
  apply closed.lengthens lengthens (fun admitted => Bool.noConfusion admitted)
  rintro ⟨other, member, _holds⟩ rfl
  rw [List.forall₂_nil_left_iff.mp paired] at member
  cases member

end Interspersed

/-! ### Renderings past comments -/

/-- The second tree is rendered longer than the first if a comment is noticed in it, and like the
first otherwise. -/
def Outgrows (brackets : List Kind) (left right : Tree) : Prop :=
  Lengthens (Noticed brackets right) (renderedType left).text (renderedType right).text

namespace Commented

variable {brackets : List Kind} {left right : Tree}

theorem words_outgrows (commented : Commented brackets left right)
    (words : isComposed left.kind = false) : Outgrows brackets left right := by
  have otherWords : isComposed right.kind = false := by
    rw [commented.kind]
    exact words
  apply Lengthens.of_eq ((commented.sameWords words).typeText words)
  apply not_noticed ?_ (renderedParts_words otherWords)
  intro listed
  rw [listed] at otherWords
  cases otherWords

theorem attribute_outgrows (commented : Commented brackets left right)
    (kind : left.kind = .attributeAccess) : Outgrows brackets left right := by
  have otherKind := commented.kind.trans kind
  unfold Outgrows
  rw [typeText_attribute kind, typeText_attribute otherKind]
  apply Lengthens.of_eq commented.dottedName
  exact not_noticed (by rw [otherKind]; decide) (renderedParts_attribute otherKind)

theorem wrapped_outgrows (commented : Commented brackets left right) (kind : left.kind = .type)
    (closed : brackets.contains .type = false) {inner : Tree} (single : Tree.named left = [inner])
    (outgrows : ∀ other, Commented brackets inner other → Outgrows brackets inner other) :
    Outgrows brackets left right := by
  have otherKind := commented.kind.trans kind
  have paired := commented.named_of_closed (by rw [kind]; rfl) (by rw [kind]; exact closed)
  rw [single] at paired
  generalize others : Tree.named right = parts at paired
  cases paired with
  | @cons _ other _ rest same none =>
      cases none
      unfold Outgrows
      rw [typeText_type kind single, typeText_type otherKind others]
      apply (outgrows other same).congr
      rw [noticed_iff (by rw [otherKind]; decide), renderedParts_named (Or.inl otherKind), others]
      simp only [List.mem_singleton, exists_eq_left]

theorem value_lengthens (commented : Commented brackets left right)
    (composed : isComposed left.kind = true)
    (outgrows : ∀ part ∈ (Tree.part? left .value).toList, ∀ other, Commented brackets part other →
      Outgrows brackets part other) :
    Lengthens (∃ other ∈ (Tree.part? right .value).toList, Noticed brackets other)
      (((Tree.part? left .value).map fun part => (renderedType part).text).getD elision)
      (((Tree.part? right .value).map fun part => (renderedType part).text).getD elision) := by
  have paired := commented.partsIn composed .value
  rw [part?_eq_head?] at outgrows ⊢
  rw [part?_eq_head?]
  generalize Extract.partsIn left .value = parts at paired outgrows ⊢
  generalize Extract.partsIn right .value = others at paired ⊢
  cases paired with
  | nil => exact .of_eq rfl fun ⟨_other, member, _shows⟩ => absurd member List.not_mem_nil
  | @cons part other _ _ same _later =>
      apply (outgrows part List.mem_cons_self other same).congr
      simp only [List.head?_cons, Option.toList_some, List.mem_singleton, exists_eq_left]

theorem subscript_outgrows (commented : Commented brackets left right)
    (kind : left.kind = .subscript)
    (outgrows : ∀ part ∈ renderedParts left, ∀ other, Commented brackets part other →
      Outgrows brackets part other) :
    Outgrows brackets left right := by
  have otherKind := commented.kind.trans kind
  have composed : isComposed left.kind = true := by rw [kind]; rfl
  rw [renderedParts_subscript kind] at outgrows
  have value := commented.value_lengthens composed fun part member =>
    outgrows part (List.mem_append_left _ member)
  have indices := Interspersed.lengthens_of_paired (commented.partsIn composed .index)
    fun part member => outgrows part (List.mem_append_right _ member)
  unfold Outgrows
  rw [typeText_subscript kind, typeText_subscript otherKind]
  apply value.bracketed indices
  rw [noticed_iff (by rw [otherKind]; decide), renderedParts_subscript otherKind]
  simp only [List.mem_append, or_and_right, exists_or]

theorem arguments_lengthens (commented : Commented brackets left right)
    (listed : left.kind = .typeParameter)
    (furnished : brackets.contains .typeParameter = true → Furnished left)
    (outgrows : ∀ part ∈ Tree.named left, ∀ other, Commented brackets part other →
      Outgrows brackets part other) :
    Lengthens (Noticed brackets right)
      (commaSeparated ((Tree.named left).map fun part => (renderedType part).text))
      (commaSeparated ((Tree.named right).map fun part => (renderedType part).text)) := by
  have interspersed := commented.interspersed_named (by rw [listed]; rfl)
  rw [listed] at interspersed
  refine (interspersed.lengthens ?_ ?_ ?_).congr (noticed_arguments (commented.kind.trans listed))
  · intro part member other same
    apply (outgrows part member other same).congr
    apply or_iff_right
    rintro ⟨admitted, comment⟩
    exact (furnished admitted).plain (.argument listed member (same.kind.symm.trans comment))
  · exact fun admitted comment kind => Or.inl ⟨admitted, kind⟩
  · rintro ⟨other, _member, ⟨admitted, _comment⟩ | ⟨admitted, _shows⟩⟩
    all_goals exact (furnished admitted).argument left left.self_mem_nodes listed

theorem generic_outgrows (commented : Commented brackets left right) {name arguments : Tree}
    (generic : IsGeneric left name arguments) (closed : brackets.contains .genericType = false)
    (furnished : brackets.contains .typeParameter = true → Furnished arguments)
    (names : ∀ other, Commented brackets name other → Outgrows brackets name other)
    (rows : ∀ part ∈ Tree.named arguments, ∀ other, Commented brackets part other →
      Outgrows brackets part other) :
    Outgrows brackets left right := by
  obtain ⟨kind, pair, listed⟩ := generic
  have otherKind := commented.kind.trans kind
  have paired := commented.named_of_closed (by rw [kind]; rfl) (by rw [kind]; exact closed)
  rw [pair] at paired
  generalize others : Tree.named right = parts at paired
  cases paired with
  | @cons _ otherName _ rest sameName last =>
      cases last with
      | @cons _ otherArguments _ rest sameArguments none =>
          cases none
          have row := sameArguments.arguments_lengthens listed furnished rows
          unfold Outgrows
          rw [typeText_generic kind pair listed,
            typeText_generic otherKind others (sameArguments.kind.trans listed)]
          apply (names otherName sameName).bracketed row
          rw [noticed_iff (by rw [otherKind]; decide),
            renderedParts_named (Or.inr (Or.inl otherKind)), others]
          simp only [List.mem_cons, List.not_mem_nil, or_false, exists_eq_or_imp, exists_eq_left]

theorem elements_outgrows (commented : Commented brackets left right)
    (kind : left.kind = .list ∨ left.kind = .tuple)
    (outgrows : ∀ part ∈ renderedParts left, ∀ other, Commented brackets part other →
      Outgrows brackets part other) :
    Outgrows brackets left right := by
  have otherKind : right.kind = .list ∨ right.kind = .tuple := by
    rw [commented.kind]
    exact kind
  rw [renderedParts_elements kind] at outgrows
  have row := Interspersed.lengthens_of_paired (commented.elements (isComposed_of_elements kind))
    outgrows
  have unlisted : right.kind ≠ .typeParameter := by
    intro listed
    rw [listed] at otherKind
    rcases otherKind with list | tuple
    · cases list
    · cases tuple
  have nothing : Lengthens False [] [] := .of_eq rfl id
  have shown : Noticed brackets right ↔
      False ∨ ∃ other ∈ Extract.elements right, Noticed brackets other := by
    rw [noticed_iff unlisted, renderedParts_elements otherKind, false_or]
  unfold Outgrows
  rcases kind with kind | kind
  · rw [typeText_list kind, typeText_list (commented.kind.trans kind)]
    exact nothing.bracketed row shown
  · rw [typeText_tuple kind, typeText_tuple (commented.kind.trans kind)]
    exact nothing.bracketed row shown

end Commented

/-- Of comments that are put in among the parts of an annotation, only those among type arguments
show, and the annotation is longer with any that does. -/
theorem TypeExpression.outgrows {brackets : List Kind} {left right : Tree}
    (expression : TypeExpression left)
    (closed : ∀ kind ∈ [Kind.type, .genericType], brackets.contains kind = false)
    (furnished : brackets.contains .typeParameter = true → Furnished left)
    (commented : Commented brackets left right) : Outgrows brackets left right := by
  rw [List.forall_mem_cons, List.forall_mem_singleton] at closed
  -- what is asked of a tree where type arguments admit comments is asked of its rendered parts
  have below {tree part : Tree} (member : part ∈ renderedParts tree)
      (furnished : brackets.contains .typeParameter = true → Furnished tree) :
      brackets.contains .typeParameter = true → Furnished part :=
    fun admitted => (furnished admitted).rendered member
  induction expression generalizing right with
  | words words => exact commented.words_outgrows words
  | access kind => exact commented.attribute_outgrows kind
  | @wrapped tree inner kind single _inner ih =>
      apply commented.wrapped_outgrows kind closed.1 single
      intro other same
      refine ih (below ?_ furnished) same
      rw [renderedParts_named (Or.inl kind), single]
      exact List.mem_cons_self
  | @subscript tree kind _parts ih =>
      apply commented.subscript_outgrows kind
      intro part member other same
      refine ih part ?_ (below member furnished) same
      rw [renderedParts_subscript kind, part?_eq_head?] at member
      exact List.mem_append.mpr ((List.mem_append.mp member).imp_left fun first =>
        List.mem_of_head? (Option.mem_toList.mp first))
  | @generic tree name arguments kind pair listed _name _arguments ihName ihArguments =>
      have rendered := renderedParts_named (Or.inr (Or.inl kind))
      rw [pair] at rendered
      have name_mem : name ∈ renderedParts tree := by
        rw [rendered]
        exact List.mem_cons_self
      have arguments_mem : arguments ∈ renderedParts tree := by
        rw [rendered]
        exact List.mem_cons_of_mem name List.mem_cons_self
      apply commented.generic_outgrows ⟨kind, pair, listed⟩ closed.2 (below arguments_mem furnished)
      · exact fun other same => ihName (below name_mem furnished) same
      · intro part member other same
        refine ihArguments part member (below ?_ (below arguments_mem furnished)) same
        rw [renderedParts_named (Or.inr (Or.inr listed))]
        exact member
  | @elements tree kind _parts ih =>
      apply commented.elements_outgrows kind
      intro part member other same
      refine ih part ?_ (below member furnished) same
      rw [← renderedParts_elements kind]
      exact member

/-- Comments in lists, tuples and subscripts never show in an annotation. -/
theorem TypeExpression.text_past_comments {left right : Tree} (expression : TypeExpression left)
    (commented : Commented openBrackets left right) :
    (renderedType right).text = (renderedType left).text := by
  apply (expression.outgrows (by decide) (fun admitted => absurd admitted (by decide))
    commented).same
  exact fun noticed => absurd noticed.1 (by decide)

/-- Comments in any brackets leave an annotation as it is exactly if none shows among its type
arguments. -/
theorem TypeExpression.text_eq_iff {left right : Tree} (expression : TypeExpression left)
    (furnished : Furnished left)
    (commented : Commented (.typeParameter :: openBrackets) left right) :
    (renderedType right).text = (renderedType left).text ↔ ¬ShowsComment right := by
  have outgrows := expression.outgrows (by decide) (fun _admitted => furnished) commented
  constructor
  · intro same shows
    have longer := outgrows.longer ⟨rfl, shows⟩
    rw [same] at longer
    exact Nat.lt_irrefl _ longer
  · exact fun unseen => outgrows.same fun noticed => unseen noticed.2

/-! ### Type arguments -/

def argumentTexts (arguments : Tree) : List (List Char) :=
  (Tree.named arguments).map fun part => (renderedType part).text

/-- Texts with those of some comments among them, both in their order. -/
inductive Noted : (comments : List Tree) → (texts entries : List (List Char)) → Prop where
  | nil : Noted [] [] []
  | text {comments : List Tree} {texts entries : List (List Char)} (text : List Char) :
      Noted comments texts entries → Noted comments (text :: texts) (text :: entries)
  | comment {comments : List Tree} {texts entries : List (List Char)} (comment : Tree) :
      Noted comments texts entries →
      Noted (comment :: comments) texts (collapsed comment :: entries)

theorem IsGeneric.text {tree name arguments : Tree} (generic : IsGeneric tree name arguments) :
    (renderedType tree).text =
      (renderedType name).text ++ '[' :: commaSeparated (argumentTexts arguments) ++ [']'] :=
  typeText_generic generic.kind generic.pair generic.listed

theorem typeText_comment {comment : Tree} (kind : comment.kind = .comment) :
    (renderedType comment).text = collapsed comment := by
  rw [renderedType_text, typeText, kind]

/-- Type arguments are not told from the comments among them. -/
theorem argumentTexts_noted (arguments : Tree) :
    Noted ((Tree.named arguments).filter fun part => part.kind == .comment)
      ((elements arguments).map fun part => (renderedType part).text)
      (argumentTexts arguments) := by
  unfold argumentTexts elements
  induction Tree.named arguments with
  | nil => exact .nil
  | cons part rest ih =>
      by_cases comment : part.kind = .comment
      · rw [List.filter_cons_of_pos (by simpa using comment),
          List.filter_cons_of_neg (by simpa using comment), List.map_cons, typeText_comment comment]
        exact .comment part ih
      · rw [List.filter_cons_of_neg (by simpa using comment),
          List.filter_cons_of_pos (by simpa using comment), List.map_cons, List.map_cons]
        exact .text _ ih

end DocHarvest.Extract
