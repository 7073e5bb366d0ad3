import Mathlib.Data.List.Forall2
import DocHarvest.Proofs.Extract.Signatures

/-!
Trees with comments put in.

A comment may stand between any two parts of a phrase in brackets.  Names are read past all of them,
and what is read by its words has none inside.
-/

namespace DocHarvest.Extract

open Program (Kind Role Tree)

/-! ### Trees with comments put in -/

/-- Kinds of phrases that are read by their parts.  A tree of any other kind is read by its
words. -/
def isComposed : Kind → Bool
  | .type | .attributeAccess | .subscript | .genericType | .typeParameter | .tuple | .list | .call
  | .parameters | .argumentList | .typedParameter | .defaultParameter | .typedDefaultParameter =>
      true
  | _ => false

/-- The same words, at another place or behind another gap. -/
structure SameWords (left right : Tree) : Prop where
  kind : right.kind = left.kind
  role : right.role = left.role
  text : right.text = left.text
  pieces : (Tree.named right).map (fun part => (part.kind, part.text)) =
    (Tree.named left).map fun part => (part.kind, part.text)

/-- A list of parts with related ones in their places, and comments between them if they are
admitted. -/
inductive Interspersed (related : Tree → Tree → Prop) :
    (admits : Bool) → List Tree → List Tree → Prop where
  | nil {admits : Bool} : Interspersed related admits [] []
  | part {admits : Bool} {part other : Tree} {parts others : List Tree} : related part other →
      Interspersed related admits parts others →
      Interspersed related admits (part :: parts) (other :: others)
  | comment {comment : Tree} {parts others : List Tree} :
      comment.kind = .comment → comment.role = none →
      Interspersed related true parts others →
      Interspersed related true parts (comment :: others)

/-- The same tree, with comments put in among the parts of phrases of some kinds.  What stands for
a name is a word. -/
inductive Commented (brackets : List Kind) : Tree → Tree → Prop where
  | words {left right : Tree} : isComposed left.kind = false → SameWords left right →
      Commented brackets left right
  | phrase {role : Option Role} {kind : Kind} {parts others : List Tree} :
      isComposed kind = true → role ≠ some .name → role ≠ some .member →
      Interspersed (Commented brackets) (brackets.contains kind) parts others →
      Commented brackets (.node role kind parts) (.node role kind others)

namespace Interspersed

variable {related : Tree → Tree → Prop} {admits : Bool} {parts others : List Tree}

theorem filter {keeps : Tree → Bool}
    (respects : ∀ part other, related part other → keeps other = keeps part)
    (interspersed : Interspersed related admits parts others) :
    Interspersed related admits (parts.filter keeps) (others.filter keeps) := by
  induction interspersed with
  | nil => exact .nil
  | @part admits part other parts others same _later ih =>
      rw [List.filter_cons, List.filter_cons, respects part other same]
      cases keeps part with
      | true => exact .part same ih
      | false => exact ih
  | @comment comment parts others kind role _later ih =>
      rw [List.filter_cons]
      cases keeps comment with
      | true => exact .comment kind role ih
      | false => exact ih

theorem paired (interspersed : Interspersed related admits parts others)
    (bare : admits = true → ∀ other ∈ others, other.kind = .comment → other.role ≠ none) :
    List.Forall₂ related parts others := by
  induction interspersed with
  | nil => exact .nil
  | part same _later ih =>
      exact .cons same (ih fun admitted => (List.forall_mem_cons.mp (bare admitted)).2)
  | comment kind role _later _ih => exact absurd role (bare rfl _ List.mem_cons_self kind)

theorem of_paired (paired : List.Forall₂ related parts others) :
    Interspersed related admits parts others := by
  induction paired with
  | nil => exact .nil
  | cons same _later ih => exact .part same ih

end Interspersed

theorem Interspersed.elements {related : Tree → Tree → Prop} {admits : Bool} {left right : Tree}
    (interspersed : Interspersed related admits left.parts right.parts)
    (kinds : ∀ part other, related part other → other.kind = part.kind) :
    List.Forall₂ related (Extract.elements left) (Extract.elements right) := by
  unfold Extract.elements Tree.named
  refine ((interspersed.filter ?_).filter ?_).paired ?_
  · intro part other same
    rw [kinds part other same]
  · intro part other same
    rw [kinds part other same]
  · intro _admitted comment member kind
    have kept := (List.mem_filter.mp member).2
    rw [kind] at kept
    cases kept

theorem forall₂_map_eq {α : Type} {related : Tree → Tree → Prop} (value : Tree → α)
    {parts others : List Tree} (paired : List.Forall₂ related parts others)
    (same : ∀ part ∈ parts, ∀ other ∈ others, related part other → value other = value part) :
    others.map value = parts.map value := by
  induction paired with
  | nil => rfl
  | @cons part other parts others here _later ih =>
      rw [List.map_cons, List.map_cons, same part List.mem_cons_self other List.mem_cons_self here,
        ih fun inner member outer among =>
          same inner (List.mem_cons_of_mem part member) outer (List.mem_cons_of_mem other among)]

namespace Commented

variable {brackets : List Kind} {left right : Tree}

theorem kind (commented : Commented brackets left right) : right.kind = left.kind := by
  cases commented with
  | words _words same => exact same.kind
  | phrase _composed _name _member _parts => rfl

theorem role (commented : Commented brackets left right) : right.role = left.role := by
  cases commented with
  | words _words same => exact same.role
  | phrase _composed _name _member _parts => rfl

theorem sameWords (commented : Commented brackets left right)
    (words : isComposed left.kind = false) : SameWords left right := by
  cases commented with
  | words _words same => exact same
  | phrase composed _name _member _parts => exact Bool.noConfusion (composed.symm.trans words)

theorem name_text (commented : Commented brackets left right)
    (named : left.role = some .name ∨ left.role = some .member) : right.text = left.text := by
  cases commented with
  | words _words same => exact same.text
  | phrase _composed name member _parts => exact (named.elim name member).elim

theorem interspersed (commented : Commented brackets left right)
    (composed : isComposed left.kind = true) :
    Interspersed (Commented brackets) (brackets.contains left.kind) left.parts right.parts := by
  cases commented with
  | words words _same => exact Bool.noConfusion (composed.symm.trans words)
  | phrase _composed _name _member parts => exact parts

theorem partsIn (commented : Commented brackets left right)
    (composed : isComposed left.kind = true) (role : Role) :
    List.Forall₂ (Commented brackets) (Extract.partsIn left role) (Extract.partsIn right role) := by
  unfold Extract.partsIn Tree.shown
  refine (((commented.interspersed composed).filter ?_).filter ?_).paired ?_
  · intro part other same
    rw [same.kind]
  · intro part other same
    rw [same.role]
  · intro _admitted comment member _kind none
    have kept := (List.mem_filter.mp member).2
    rw [none] at kept
    cases kept

theorem elements (commented : Commented brackets left right)
    (composed : isComposed left.kind = true) :
    List.Forall₂ (Commented brackets) (Extract.elements left) (Extract.elements right) :=
  (commented.interspersed composed).elements fun _ _ same => same.kind

theorem interspersed_named (commented : Commented brackets left right)
    (composed : isComposed left.kind = true) :
    Interspersed (Commented brackets) (brackets.contains left.kind) (Tree.named left)
      (Tree.named right) := by
  unfold Tree.named
  apply (commented.interspersed composed).filter
  intro part other same
  rw [same.kind]

theorem named (commented : Commented brackets left right) (composed : isComposed left.kind = true)
    (bare : brackets.contains left.kind = true →
      ∀ part ∈ Tree.named right, part.kind ≠ .comment) :
    List.Forall₂ (Commented brackets) (Tree.named left) (Tree.named right) :=
  (commented.interspersed_named composed).paired fun admitted part member kind =>
    absurd kind (bare admitted part member)

theorem named_of_closed (commented : Commented brackets left right)
    (composed : isComposed left.kind = true) (closed : brackets.contains left.kind = false) :
    List.Forall₂ (Commented brackets) (Tree.named left) (Tree.named right) :=
  commented.named composed fun admitted => Bool.noConfusion (closed.symm.trans admitted)

theorem part?_map {α : Type} {value : Tree → α} (commented : Commented brackets left right)
    (composed : isComposed left.kind = true) {role : Role}
    (same : ∀ part, Tree.part? left role = some part → ∀ other, Tree.part? right role = some other →
      Commented brackets part other → value other = value part) :
    (Tree.part? right role).map value = (Tree.part? left role).map value := by
  have paired := commented.partsIn composed role
  rw [part?_eq_head?, part?_eq_head?] at same
  rw [part?_eq_head?, part?_eq_head?]
  generalize Extract.partsIn left role = parts at paired same ⊢
  generalize Extract.partsIn right role = others at paired same ⊢
  cases paired with
  | nil => rfl
  | cons here _later => exact congrArg some (same _ rfl _ rfl here)

end Commented

/-! ### Names -/

namespace Commented

variable {brackets : List Kind} {left right : Tree}

theorem memberName (commented : Commented brackets left right)
    (composed : isComposed left.kind = true) {object other : Option (List Char)}
    (same : other = object) : memberName right other = memberName left object := by
  have member : (Tree.part? right .member).map Grammar.Tree.text =
      (Tree.part? left .member).map Grammar.Tree.text := by
    apply commented.part?_map composed
    intro part found other _there inner
    exact inner.name_text (Or.inr (role_of_part? found))
  unfold Extract.memberName
  rw [member, same]

theorem dottedName (commented : Commented brackets left right) :
    dottedName right = dottedName left := by
  induction left using Grammar.Tree.byParts generalizing right with
  | step left ih =>
      have kind := commented.kind
      by_cases identifier : left.kind = .identifier
      · have same := commented.sameWords (by rw [identifier]; rfl)
        rw [dottedName_identifier identifier, dottedName_identifier (kind.trans identifier),
          same.text]
      · by_cases access : left.kind = .attributeAccess
        · have composed : isComposed left.kind = true := by rw [access]; rfl
          rw [dottedName_attribute access, dottedName_attribute (kind.trans access)]
          apply commented.memberName composed
          apply commented.part?_map composed
          intro part found other _there inner
          exact ih part (mem_parts_of_part? found) inner
        · have other : left.kind ∉ [Kind.identifier, .attributeAccess] := by
            simp [identifier, access]
          rw [dottedName_other other, dottedName_other (by rw [kind]; exact other)]

theorem expressionName (commented : Commented brackets left right) :
    expressionName right = expressionName left := by
  induction left using Grammar.Tree.byParts generalizing right with
  | step left ih =>
      have kind := commented.kind
      have inner (composed : isComposed left.kind = true) (role : Role) :
          (Tree.part? right role).map Extract.expressionName =
            (Tree.part? left role).map Extract.expressionName := by
        apply commented.part?_map composed
        intro part found other _there inner
        exact ih part (mem_parts_of_part? found) inner
      by_cases listed : left.kind ∈ [Kind.identifier, .attributeAccess, .subscript, .call]
      · simp only [List.mem_cons, List.not_mem_nil, or_false] at listed
        rcases listed with identifier | access | subscript | call
        · have same := commented.sameWords (by rw [identifier]; rfl)
          rw [expressionName_identifier identifier,
            expressionName_identifier (kind.trans identifier), same.text]
        · have composed : isComposed left.kind = true := by rw [access]; rfl
          rw [expressionName_attribute access, expressionName_attribute (kind.trans access)]
          exact commented.memberName composed (inner composed .object)
        · have composed : isComposed left.kind = true := by rw [subscript]; rfl
          rw [expressionName_subscript subscript, expressionName_subscript (kind.trans subscript),
            inner composed .value]
        · have composed : isComposed left.kind = true := by rw [call]; rfl
          rw [expressionName_call call, expressionName_call (kind.trans call),
            inner composed .callee]
      · rw [expressionName_other listed, expressionName_other (by rw [kind]; exact listed)]

end Commented

/-! ### Words -/

section Words

variable {left right : Tree}

theorem SameWords.stringValue? (same : SameWords left right) :
    stringValue? right = stringValue? left := by
  have pieces (tree : Tree) : ((Tree.named tree).filter fun part => part.kind == .string).mapM
      (fun part => literalValue? part.text) =
        (((Tree.named tree).map fun part => (part.kind, part.text)).filter
          fun piece => piece.1 == .string).mapM fun piece => literalValue? piece.2 := by
    rw [List.filter_map, List.mapM_map]
    rfl
  unfold Extract.stringValue?
  rw [same.kind, same.text, pieces right, pieces left, same.pieces]

theorem SameWords.typeText (same : SameWords left right) (words : isComposed left.kind = false) :
    (renderedType right).text = (renderedType left).text := by
  rw [renderedType_text, renderedType_text]
  unfold Extract.typeText collapsed
  rw [same.kind, same.text]
  split
  all_goals first | rfl | (next kind => rw [kind] at words; cases words)

theorem SameWords.defaultText (same : SameWords left right)
    (other : left.kind ∉ [Kind.attributeAccess, .list, .tuple]) :
    defaultText right = defaultText left := by
  have kind := same.kind
  unfold Extract.defaultText
  rw [Grammar.Tree.fold_eq, Grammar.Tree.fold_eq]
  unfold collapsed
  rw [kind, same.text, same.stringValue?]
  have identifier (here : left.kind = .identifier) : expressionName right = expressionName left := by
    rw [expressionName_identifier here, expressionName_identifier (kind.trans here), same.text]
  split
  all_goals first | rfl | exact identifier ‹_› | exact absurd (by simp [*]) other

end Words

end DocHarvest.Extract
