/-!
Grammar rules as data.

A rule says which sequences of symbols a category of phrases may stand for.  Besides the usual
sequence, choice and repetition it carries what resolves ambiguity: a level and a grouping side
for choices made while the phrase is being read, and a weight for whole readings that remain.
A rule may also name the role a part plays in its phrase, or show a part under another name.
-/

namespace DocHarvest.Grammar

/-- The side on which an operator of one level groups with itself. -/
inductive Grouping where
  | left
  | right
deriving DecidableEq, Repr

/-- A rule over symbols `κ` and roles `φ`.  A symbol without a rule of its own is a terminal. -/
inductive Rule (κ φ : Type) where
  | nothing
  | symbol (name : κ)
  | follow (first second : Rule κ φ)
  | either (first second : Rule κ φ)
  | many (body : Rule κ φ)
  | ranked (level : Int) (grouping : Option Grouping) (body : Rule κ φ)
  | weighted (weight : Int) (body : Rule κ φ)
  | role (name : φ) (body : Rule κ φ)
  | shown (name : κ) (body : Rule κ φ)
deriving BEq, Repr

namespace Rule

variable {κ φ : Type}

def sequence : List (Rule κ φ) → Rule κ φ
  | [] => .nothing
  | [only] => only
  | first :: rest => .follow first (sequence rest)

def choice : List (Rule κ φ) → Rule κ φ
  | [] => .nothing
  | [only] => only
  | first :: rest => .either first (choice rest)

def optional (body : Rule κ φ) : Rule κ φ :=
  .either body .nothing

def manyOrNone (body : Rule κ φ) : Rule κ φ :=
  optional (.many body)

/-- The rule once or more, with `separator` between two occurrences. -/
def separated (body separator : Rule κ φ) : Rule κ φ :=
  .follow body (manyOrNone (.follow separator body))

def symbols : Rule κ φ → List κ
  | .nothing => []
  | .symbol name => [name]
  | .follow first second | .either first second => first.symbols ++ second.symbols
  | .many body | .ranked _ _ body | .weighted _ body | .role _ body | .shown _ body =>
      body.symbols

/-- The bodies of all repetitions inside a rule, inner ones first. -/
def repetitions : Rule κ φ → List (Rule κ φ)
  | .nothing | .symbol _ => []
  | .follow first second | .either first second => first.repetitions ++ second.repetitions
  | .many body => body.repetitions ++ [body]
  | .ranked _ _ body | .weighted _ body | .role _ body | .shown _ body => body.repetitions

end Rule

/-- A grammar: the rules of its categories, the category of a whole text, the categories whose
alternatives are written out where they are used, and the terminals that may stand anywhere. -/
structure Specification (κ φ : Type) where
  rules : List (κ × Rule κ φ)
  start : κ
  inlined : List κ
  extras : List κ
  terminals : List κ

end DocHarvest.Grammar
