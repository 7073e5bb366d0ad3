import DocHarvest.Config
import DocHarvest.Extract.Definition

/-!
The documentation of one source text.

A parser gives the tree of the text.  The tree is refused if the parser has marked a place in it, or
if it holds a statement that only the second version of the language has; what is told is the first
such node in the order of the text.
-/

namespace DocHarvest

open Program (Kind Parser Tree)

namespace Extract

/-! ### The first node of some kinds -/

/-- The first node of some kinds, where only parts of certain kinds are searched. -/
def firstOf? (searched sought : Kind → Bool) : Tree → Option Tree :=
  Grammar.Tree.fold fun tree parts =>
    if sought tree.kind then some tree
    else (parts.filter fun part => searched part.1.kind).findSome? Prod.snd

def legacyKinds : List Kind := [.printStatement, .execStatement]

/-- Statements that only the second version of the language has. -/
def isLegacyKind (kind : Kind) : Bool :=
  legacyKinds.contains kind

def legacyStatement? : Tree → Option Tree :=
  firstOf? Kind.isNamed isLegacyKind

/-- Whether a parser has left a mark anywhere in a tree, shown or not. -/
def hasFault : Tree → Bool :=
  Grammar.Tree.fold fun tree parts => tree.kind.isFault || parts.any Prod.snd

/-- The first mark among the shown nodes.  Trees without marks are passed over. -/
def firstFault? : Tree → Option Tree :=
  Grammar.Tree.fold fun tree parts =>
    if tree.kind.isFault then some tree
    else if hasFault tree then
      (parts.filter fun part => !part.1.kind.isHidden).findSome? Prod.snd
    else none

/-! ### Refusals -/

def describeText (text : List Char) : String :=
  let snippet := Text.trim ((Text.lines text).headD [])
  if snippet.isEmpty then "invalid syntax"
  else "invalid syntax near '" ++ String.ofList (snippet.take 40) ++ "'"

def describe (tree : Tree) : String :=
  match tree.kind with
  | .missing name => "missing '" ++ name ++ "'"
  | _ => describeText tree.text

/-- The error that tells of a node, its place counted from one. -/
def malformed (path : String) (tree : Tree) : Error :=
  .malformed path (tree.start.line + 1) (tree.start.column + 1) (describe tree)

/-- Everything documented in a tree.  A mark that is not shown is told at the beginning. -/
def ofTree (style : Style) (path : String) (tree : Tree) : Except Error FileDoc :=
  if hasFault tree then .error (malformed path ((firstFault? tree).getD tree))
  else
    match legacyStatement? tree with
    | some statement => .error (malformed path statement)
    | none => .ok (moduleDoc style path tree)

end Extract

/-- Everything documented in a source text, before inheritance is resolved. -/
def extract (parser : Parser) (style : Style) (path source : String) : Except Error FileDoc :=
  match parser.refused? with
  | some reason => .error (.unparsable path reason)
  | none =>
      match parser.parse source.toList with
      | none => .error (.unparsable path "Failed to parse")
      | some tree => Extract.ofTree style path tree

end DocHarvest
