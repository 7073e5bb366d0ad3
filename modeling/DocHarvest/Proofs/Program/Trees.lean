import Mathlib.Data.List.Basic
import DocHarvest.Grammar.Tree

/-!
Trees and their nodes.

A tree has its nodes in the order of the text when the parts of each node stand one behind the
other: then no node begins before one that is listed earlier.
-/

namespace DocHarvest.Grammar

/-! ### Places -/

namespace Place

/-- A place is not behind another one: it stands in an earlier line, or not further in the same. -/
instance : LE Place :=
  ⟨fun first second =>
    first.line < second.line ∨ (first.line = second.line ∧ first.column ≤ second.column)⟩

instance (first second : Place) : Decidable (first ≤ second) :=
  inferInstanceAs (Decidable (first.line < second.line ∨
    (first.line = second.line ∧ first.column ≤ second.column)))

theorem le_iff {first second : Place} :
    first ≤ second ↔
      first.line < second.line ∨ (first.line = second.line ∧ first.column ≤ second.column) :=
  Iff.rfl

theorem le_refl (place : Place) : place ≤ place :=
  Or.inr ⟨rfl, Nat.le_refl _⟩

theorem le_trans {first second third : Place} (early : first ≤ second) (late : second ≤ third) :
    first ≤ third := by
  rw [le_iff] at early late ⊢
  omega

theorem le_antisymm {first second : Place} (forth : first ≤ second) (back : second ≤ first) :
    first = second := by
  rw [le_iff] at forth back
  cases first
  cases second
  simp only [mk.injEq] at forth back ⊢
  omega

theorem le_step (place : Place) (character : Char) : place ≤ place.step character := by
  unfold step
  rw [le_iff]
  split
  · exact Or.inl (Nat.lt_succ_self _)
  · exact Or.inr ⟨rfl, Nat.le_add_right _ _⟩

theorem le_after (place : Place) (text : List Char) : place ≤ place.after text := by
  induction text generalizing place with
  | nil => exact le_refl place
  | cons character rest ih => exact le_trans (le_step place character) (ih _)

end Place

namespace Tree

variable {κ φ α : Type}

theorem foldAll_eq_map (combine : Tree κ φ → List (Tree κ φ × α) → α) (parts : List (Tree κ φ)) :
    foldAll combine parts = parts.map fun part => (part, fold combine part) := by
  induction parts with
  | nil => rfl
  | cons part rest ih => rw [foldAll, ih, List.map_cons]

theorem fold_eq (combine : Tree κ φ → List (Tree κ φ × α) → α) (tree : Tree κ φ) :
    fold combine tree = combine tree (tree.parts.map fun part => (part, fold combine part)) := by
  cases tree with
  | leaf role kind gap text start => rfl
  | node role kind parts => rw [fold, foldAll_eq_map]; rfl

/-- What holds of a tree as soon as it holds of its parts holds of every tree. -/
@[elab_as_elim]
theorem byParts {motive : Tree κ φ → Prop}
    (step : ∀ tree, (∀ part ∈ tree.parts, motive part) → motive tree) (tree : Tree κ φ) :
    motive tree := by
  refine Tree.rec (motive_1 := motive) (motive_2 := fun parts => ∀ part ∈ parts, motive part)
    ?_ ?_ ?_ ?_ tree
  · intro role kind gap text start
    exact step _ fun part member => absurd member List.not_mem_nil
  · intro role kind parts ih
    exact step _ ih
  · exact fun part member => absurd member List.not_mem_nil
  · intro first rest here later
    exact List.forall_mem_cons.mpr ⟨here, later⟩

/-! ### Nodes -/

/-- All nodes of a tree, each before its parts. -/
def nodes : Tree κ φ → List (Tree κ φ) :=
  fold fun tree parts => tree :: parts.flatMap Prod.snd

/-- The place behind a tree. -/
def finish : Tree κ φ → Place :=
  fold fun tree parts =>
    match tree with
    | .leaf _ _ _ text start => start.after text
    | .node .. => (parts.getLast?.map Prod.snd).getD .origin

theorem nodes_eq (tree : Tree κ φ) : tree.nodes = tree :: tree.parts.flatMap nodes := by
  unfold nodes
  rw [fold_eq, List.flatMap_map]

theorem finish_node (role : Option φ) (kind : κ) (parts : List (Tree κ φ)) :
    (node role kind parts).finish = (parts.getLast?.map finish).getD .origin := by
  unfold finish
  rw [fold_eq]
  show ((List.map _ parts).getLast?.map Prod.snd).getD _ = _
  rw [List.getLast?_map, Option.map_map]
  rfl

theorem start_node (role : Option φ) (kind : κ) (parts : List (Tree κ φ)) :
    (node role kind parts).start = (parts.head?.map start).getD .origin := by
  cases parts with
  | nil => rfl
  | cons first rest => rfl

theorem self_mem_nodes (tree : Tree κ φ) : tree ∈ tree.nodes := by
  rw [nodes_eq]
  exact List.mem_cons_self

theorem mem_nodes_of_part {tree part inner : Tree κ φ} (member : part ∈ tree.parts)
    (inside : inner ∈ part.nodes) : inner ∈ tree.nodes := by
  rw [nodes_eq]
  exact List.mem_cons_of_mem _ (List.mem_flatMap.mpr ⟨part, member, inside⟩)

/-! ### Trees in the order of the text -/

/-- At every node the parts stand one behind the other. -/
def InOrder (tree : Tree κ φ) : Prop :=
  ∀ inner ∈ tree.nodes, inner.parts.Pairwise fun earlier later => earlier.finish ≤ later.start

instance (tree : Tree κ φ) : Decidable tree.InOrder :=
  inferInstanceAs (Decidable (∀ inner ∈ tree.nodes,
    inner.parts.Pairwise fun earlier later => earlier.finish ≤ later.start))

namespace InOrder

variable {tree part inner : Tree κ φ}

theorem of_part (ordered : tree.InOrder) (member : part ∈ tree.parts) : part.InOrder :=
  fun inner inside => ordered inner (mem_nodes_of_part member inside)

theorem parts (ordered : tree.InOrder) :
    tree.parts.Pairwise fun earlier later => earlier.finish ≤ later.start :=
  ordered tree tree.self_mem_nodes

/-- A tree begins where its first part does and ends where its last part does, so each part lies
between. -/
theorem encloses (ordered : tree.InOrder) (spans : ∀ part ∈ tree.parts, part.start ≤ part.finish)
    (member : part ∈ tree.parts) : tree.start ≤ part.start ∧ part.finish ≤ tree.finish := by
  have apart := ordered.parts
  cases tree with
  | leaf role kind gap text start => cases member
  | node role kind parts =>
      rw [start_node, finish_node]
      change part ∈ parts at member
      change parts.Pairwise _ at apart
      constructor
      · cases parts with
        | nil => cases member
        | cons first rest =>
            rcases List.mem_cons.mp member with same | later
            · rw [same]
              exact Place.le_refl _
            · have between := (List.pairwise_cons.mp apart).1 part later
              exact Place.le_trans (spans first List.mem_cons_self) between
      · obtain ⟨before, last, split⟩ : ∃ before last, parts = before ++ [last] :=
          (List.eq_nil_or_concat' parts).resolve_left (List.ne_nil_of_mem member)
        subst split
        rw [List.getLast?_concat]
        rcases List.mem_append.mp member with early | same
        · have between := (List.pairwise_append.mp apart).2.2 part early last (by simp)
          exact Place.le_trans between (spans last (by simp [Tree.parts]))
        · rw [List.mem_singleton.mp same]
          exact Place.le_refl _

theorem start_le_finish (ordered : tree.InOrder) : tree.start ≤ tree.finish := by
  induction tree using byParts with
  | step tree ih =>
      have spans : ∀ part ∈ tree.parts, part.start ≤ part.finish :=
        fun part member => ih part member (ordered.of_part member)
      cases tree with
      | leaf role kind gap text start => exact Place.le_after start text
      | node role kind parts =>
          cases parts with
          | nil => exact Place.le_refl _
          | cons first rest =>
              have here : first ∈ (node role kind (first :: rest)).parts := List.mem_cons_self
              have enclosed := ordered.encloses spans here
              exact Place.le_trans enclosed.1 (Place.le_trans (spans first here) enclosed.2)

/-- Every node of a tree begins inside the tree. -/
theorem start_between (ordered : tree.InOrder) (inside : inner ∈ tree.nodes) :
    tree.start ≤ inner.start ∧ inner.start ≤ tree.finish := by
  induction tree using byParts with
  | step tree ih =>
      rw [nodes_eq] at inside
      rcases List.mem_cons.mp inside with same | below
      · rw [same]
        exact ⟨Place.le_refl _, ordered.start_le_finish⟩
      · obtain ⟨part, member, deeper⟩ := List.mem_flatMap.mp below
        have spans : ∀ part ∈ tree.parts, part.start ≤ part.finish :=
          fun part member => (ordered.of_part member).start_le_finish
        have enclosed := ordered.encloses spans member
        have between := ih part member (ordered.of_part member) deeper
        exact ⟨Place.le_trans enclosed.1 between.1, Place.le_trans between.2 enclosed.2⟩

/-- No node begins before one that comes earlier in the list of nodes. -/
theorem nodes_sorted (ordered : tree.InOrder) :
    tree.nodes.Pairwise fun earlier later => earlier.start ≤ later.start := by
  induction tree using byParts with
  | step tree ih =>
      have first : ∀ inner ∈ tree.parts.flatMap nodes, tree.start ≤ inner.start := by
        intro inner below
        have inside : inner ∈ tree.nodes := by
          rw [nodes_eq]
          exact List.mem_cons_of_mem _ below
        exact (ordered.start_between inside).1
      have across : tree.parts.Pairwise fun earlier later =>
          ∀ left ∈ earlier.nodes, ∀ right ∈ later.nodes, left.start ≤ right.start := by
        refine List.Pairwise.imp_of_mem ?_ ordered.parts
        intro earlier later here there apart left inLeft right inRight
        have before := ((ordered.of_part here).start_between inLeft).2
        have behind := ((ordered.of_part there).start_between inRight).1
        exact Place.le_trans before (Place.le_trans apart behind)
      rw [nodes_eq, List.pairwise_cons, List.pairwise_flatMap]
      exact ⟨first, fun part member => ih part member (ordered.of_part member), across⟩

end InOrder

end Tree

end DocHarvest.Grammar
