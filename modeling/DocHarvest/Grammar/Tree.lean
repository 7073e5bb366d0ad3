/-!
Concrete trees.

A tree keeps every character of the text it was read from: a leaf holds its own text and the gap
before it.  So the text of a tree is a function of the tree alone.
-/

namespace DocHarvest.Grammar

/-- A place in a text: the line, and the number of bytes before the place in that line, both
counted from zero. -/
structure Place where
  line : Nat
  column : Nat
deriving DecidableEq, Repr, Inhabited

namespace Place

def origin : Place := ⟨0, 0⟩

def step (place : Place) (character : Char) : Place :=
  if character = '\n' then ⟨place.line + 1, 0⟩
  else ⟨place.line, place.column + character.utf8Size⟩

def after (place : Place) (text : List Char) : Place :=
  text.foldl step place

end Place

/-- A tree over kinds `κ` whose parts may play a role `φ`. -/
inductive Tree (κ φ : Type) where
  | leaf (role : Option φ) (kind : κ) (gap text : List Char) (start : Place)
  | node (role : Option φ) (kind : κ) (parts : List (Tree κ φ))
deriving Repr, Inhabited

namespace Tree

variable {κ φ : Type}

def kind : Tree κ φ → κ
  | .leaf _ kind _ _ _ | .node _ kind _ => kind

def role : Tree κ φ → Option φ
  | .leaf role _ _ _ _ | .node role _ _ => role

def parts : Tree κ φ → List (Tree κ φ)
  | .leaf .. => []
  | .node _ _ parts => parts

def withKind (kind : κ) : Tree κ φ → Tree κ φ
  | .leaf role _ gap text start => .leaf role kind gap text start
  | .node role _ parts => .node role kind parts

/-- The same tree in a role, unless it plays one already. -/
def inRole (role : Option φ) : Tree κ φ → Tree κ φ
  | .leaf known kind gap text start => .leaf (known.or role) kind gap text start
  | .node known kind parts => .node (known.or role) kind parts

mutual

/-- The text of a tree with the gap before it. -/
def fullText : Tree κ φ → List Char
  | .leaf _ _ gap text _ => gap ++ text
  | .node _ _ parts => fullTexts parts

def fullTexts : List (Tree κ φ) → List Char
  | [] => []
  | first :: rest => fullText first ++ fullTexts rest

end

mutual

def gap : Tree κ φ → List Char
  | .leaf _ _ gap _ _ => gap
  | .node _ _ parts => firstGap parts

def firstGap : List (Tree κ φ) → List Char
  | [] => []
  | first :: _ => gap first

end

mutual

def start : Tree κ φ → Place
  | .leaf _ _ _ _ start => start
  | .node _ _ parts => firstStart parts

def firstStart : List (Tree κ φ) → Place
  | [] => .origin
  | first :: _ => start first

end

/-- The text of a tree, from its first leaf to its last. -/
def text (tree : Tree κ φ) : List Char :=
  tree.fullText.drop tree.gap.length

mutual

/-- Compute bottom up: the value of a tree from the tree and its parts with their values. -/
def fold {α : Type} (combine : Tree κ φ → List (Tree κ φ × α) → α) : Tree κ φ → α
  | .leaf role kind gap text start => combine (.leaf role kind gap text start) []
  | .node role kind parts => combine (.node role kind parts) (foldAll combine parts)

def foldAll {α : Type} (combine : Tree κ φ → List (Tree κ φ × α) → α) :
    List (Tree κ φ) → List (Tree κ φ × α)
  | [] => []
  | first :: rest => (first, fold combine first) :: foldAll combine rest

end

end Tree

end DocHarvest.Grammar
