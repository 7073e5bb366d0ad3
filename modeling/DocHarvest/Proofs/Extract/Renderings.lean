import Mathlib.Data.List.Basic
import DocHarvest.Extract.Render
import DocHarvest.Proofs.Program.Trees

/-!
Renderings by the parts of a tree.

Each renderer computes bottom up; here its value for a tree of a kind is an equation over its values
for the parts that it reads.
-/

namespace DocHarvest.Extract

open Program (Kind Role Tree)

/-! ### Values of parts -/

/-- The shown parts of a tree in a role. -/
def partsIn (tree : Tree) (role : Role) : List Tree :=
  (Tree.shown tree).filter fun part => part.role == some role

/-- The named parts of a tree that are not comments. -/
def elements (tree : Tree) : List Tree :=
  (Tree.named tree).filter fun part => part.kind != .comment

theorem part?_eq_head? (tree : Tree) (role : Role) :
    Tree.part? tree role = (partsIn tree role).head? := by
  unfold partsIn
  rw [List.head?_filter]
  rfl

theorem mem_parts_of_part? {tree part : Tree} {role : Role}
    (found : Tree.part? tree role = some part) : part ∈ tree.parts :=
  (List.mem_filter.mp (List.mem_of_find?_eq_some found)).1

theorem role_of_part? {tree part : Tree} {role : Role} (found : Tree.part? tree role = some part) :
    part.role = some role := by
  unfold Tree.part? at found
  have same := List.find?_some found
  exact beq_iff_eq.mp same

section Parts

variable {α : Type} (tree : Tree) (value : Tree → α)

theorem ofNamed_map :
    ofNamed ((Grammar.Tree.parts tree).map fun part => (part, value part)) =
      (Tree.named tree).map fun part => (part, value part) := by
  unfold ofNamed Tree.named
  rw [List.filter_map]
  rfl

theorem ofElements_map :
    ofElements ((Grammar.Tree.parts tree).map fun part => (part, value part)) =
      (elements tree).map value := by
  unfold ofElements elements
  rw [ofNamed_map, List.filter_map, List.map_map]
  rfl

theorem ofRole_map (role : Role) :
    ofRole ((Grammar.Tree.parts tree).map fun part => (part, value part)) role =
      (partsIn tree role).map value := by
  unfold ofRole partsIn Tree.shown
  rw [List.filter_map, List.map_map, List.filter_filter]
  refine congrArg (List.map value) (List.filter_congr ?_)
  intro part _member
  exact Bool.and_comm _ _

theorem ofRole?_map (role : Role) :
    ofRole? ((Grammar.Tree.parts tree).map fun part => (part, value part)) role =
      (Tree.part? tree role).map value := by
  rw [part?_eq_head?, ← List.head?_map, ← ofRole_map]
  unfold ofRole? ofRole
  rw [List.head?_map, List.head?_filter]

end Parts

/-! ### Names -/

section Names

variable {tree : Tree}

theorem dottedName_identifier (kind : tree.kind = .identifier) : dottedName tree = tree.text := by
  rw [dottedName, Grammar.Tree.fold_eq]
  simp only [kind]

theorem dottedName_attribute (kind : tree.kind = .attributeAccess) :
    dottedName tree = memberName tree ((Tree.part? tree .object).map dottedName) := by
  rw [dottedName, Grammar.Tree.fold_eq]
  simp only [kind, ofRole?_map]

theorem dottedName_other (other : tree.kind ∉ [Kind.identifier, .attributeAccess]) :
    dottedName tree = elision := by
  rw [dottedName, Grammar.Tree.fold_eq]
  split
  all_goals first | rfl | exact absurd (by simp [*]) other

theorem expressionName_identifier (kind : tree.kind = .identifier) :
    expressionName tree = tree.text := by
  rw [expressionName, Grammar.Tree.fold_eq]
  simp only [kind]

theorem expressionName_attribute (kind : tree.kind = .attributeAccess) :
    expressionName tree = memberName tree ((Tree.part? tree .object).map expressionName) := by
  rw [expressionName, Grammar.Tree.fold_eq]
  simp only [kind, ofRole?_map]

theorem expressionName_subscript (kind : tree.kind = .subscript) :
    expressionName tree =
      (((Tree.part? tree .value).map expressionName).map (· ++ "[...]".toList)).getD elision := by
  rw [expressionName, Grammar.Tree.fold_eq]
  simp only [kind, ofRole?_map]
  cases Tree.part? tree .value <;> rfl

theorem expressionName_call (kind : tree.kind = .call) :
    expressionName tree =
      (((Tree.part? tree .callee).map expressionName).map (· ++ "(...)".toList)).getD elision := by
  rw [expressionName, Grammar.Tree.fold_eq]
  simp only [kind, ofRole?_map]
  cases Tree.part? tree .callee <;> rfl

theorem expressionName_other
    (other : tree.kind ∉ [Kind.identifier, .attributeAccess, .subscript, .call]) :
    expressionName tree = elision := by
  rw [expressionName, Grammar.Tree.fold_eq]
  split
  all_goals first | rfl | exact absurd (by simp [*]) other

theorem decoratorName_name (kind : tree.kind = .identifier ∨ tree.kind = .attributeAccess) :
    decoratorName tree = dottedName tree := by
  rw [decoratorName, Grammar.Tree.fold_eq]
  rcases kind with kind | kind
  · simp only [kind]
  · simp only [kind]

theorem decoratorName_call (kind : tree.kind = .call) :
    decoratorName tree = ((Tree.part? tree .callee).map decoratorName).getD elision := by
  rw [decoratorName, Grammar.Tree.fold_eq]
  simp only [kind, ofRole?_map]

theorem decoratorName_other (other : tree.kind ∉ [Kind.identifier, .attributeAccess, .call]) :
    decoratorName tree = elision := by
  rw [decoratorName, Grammar.Tree.fold_eq]
  split
  all_goals first | rfl | exact absurd (by simp [*]) other

end Names

/-! ### Annotations -/

section Annotations

variable {tree : Tree}

theorem renderedType_arguments :
    (renderedType tree).arguments =
      (Tree.named tree).map fun part => (renderedType part).text := by
  unfold renderedType
  rw [Grammar.Tree.fold_eq, ofNamed_map, List.map_map]
  rfl

theorem renderedType_text :
    (renderedType tree).text =
      typeText tree (tree.parts.map fun part => (part, renderedType part)) := by
  unfold renderedType
  rw [Grammar.Tree.fold_eq]

theorem typeText_type (kind : tree.kind = .type) {inner : Tree} (single : Tree.named tree = [inner]) :
    (renderedType tree).text = (renderedType inner).text := by
  rw [renderedType_text, typeText, kind, ofNamed_map, single]
  rfl

theorem typeText_attribute (kind : tree.kind = .attributeAccess) :
    (renderedType tree).text = dottedName tree := by
  rw [renderedType_text, typeText, kind]

theorem typeText_subscript (kind : tree.kind = .subscript) :
    (renderedType tree).text =
      ((Tree.part? tree .value).map fun value => (renderedType value).text).getD elision ++
        '[' :: commaSeparated ((partsIn tree .index).map fun index => (renderedType index).text) ++
          [']'] := by
  rw [renderedType_text, typeText, kind]
  simp only [ofRole?_map, ofRole_map, Option.map_map, List.map_map]
  rfl

theorem typeText_generic (kind : tree.kind = .genericType) {name arguments : Tree}
    (pair : Tree.named tree = [name, arguments]) (listed : arguments.kind = .typeParameter) :
    (renderedType tree).text =
      (renderedType name).text ++
        '[' :: commaSeparated ((Tree.named arguments).map fun part => (renderedType part).text) ++
          [']'] := by
  rw [renderedType_text, typeText, kind, ofNamed_map, pair, ← renderedType_arguments]
  simp only [List.map_cons, List.map_nil, listed, beq_self_eq_true, if_true]

theorem typeText_list (kind : tree.kind = .list) :
    (renderedType tree).text =
      '[' :: commaSeparated ((elements tree).map fun part => (renderedType part).text) ++ [']'] := by
  rw [renderedType_text, typeText, kind, ofElements_map, List.map_map]
  rfl

theorem typeText_tuple (kind : tree.kind = .tuple) :
    (renderedType tree).text =
      '(' :: commaSeparated ((elements tree).map fun part => (renderedType part).text) ++ [')'] := by
  rw [renderedType_text, typeText, kind, ofElements_map, List.map_map]
  rfl

end Annotations

/-! ### Default values -/

section Defaults

variable {tree : Tree}

theorem defaultText_attribute (kind : tree.kind = .attributeAccess) :
    defaultText tree = expressionName tree := by
  rw [defaultText, Grammar.Tree.fold_eq]
  simp only [kind]

theorem defaultText_list (kind : tree.kind = .list) :
    defaultText tree = '[' :: commaSeparated ((elements tree).map defaultText) ++ [']'] := by
  rw [defaultText, Grammar.Tree.fold_eq]
  simp only [kind, ofElements_map]

theorem defaultText_tuple (kind : tree.kind = .tuple) :
    defaultText tree = '(' :: commaSeparated ((elements tree).map defaultText) ++ [')'] := by
  rw [defaultText, Grammar.Tree.fold_eq]
  simp only [kind, ofElements_map]

theorem defaultText_subscript (kind : tree.kind = .subscript) :
    defaultText tree = collapsed tree := by
  rw [defaultText, Grammar.Tree.fold_eq]
  simp only [kind]

theorem defaultText_string (kind : tree.kind = .string ∨ tree.kind = .concatenatedString)
    {value : List Char} (valued : stringValue? tree = some value) :
    defaultText tree = '\'' :: value ++ ['\''] := by
  rw [defaultText, Grammar.Tree.fold_eq]
  rcases kind with kind | kind
  · simp only [kind, valued]
  · simp only [kind, valued]

end Defaults

end DocHarvest.Extract
