import DocHarvest.Extract.Literal
import DocHarvest.Program.Kind

/-!
Annotations, default values, bases and decorators as texts.

All of these are functions of the tree alone.
-/

namespace DocHarvest.Extract

open Program (Kind Role Tree)

/-- What stands for an expression that is not rendered. -/
def elision : List Char := "...".toList

def commaSeparated (texts : List (List Char)) : List Char :=
  Text.join [',', ' '] texts

section Parts

variable {α : Type}

def ofNamed (parts : List (Tree × α)) : List (Tree × α) :=
  parts.filter fun part => part.1.kind.isNamed

/-- The value of the first shown part in a role. -/
def ofRole? (parts : List (Tree × α)) (role : Role) : Option α :=
  (parts.find? fun part => !part.1.kind.isHidden && part.1.role == some role).map Prod.snd

def ofRole (parts : List (Tree × α)) (role : Role) : List α :=
  (parts.filter fun part => !part.1.kind.isHidden && part.1.role == some role).map Prod.snd

/-- The values of the named parts that are not comments. -/
def ofElements (parts : List (Tree × α)) : List α :=
  ((ofNamed parts).filter fun part => part.1.kind != .comment).map Prod.snd

end Parts

/-! ### Names -/

def memberName (tree : Tree) (object : Option (List Char)) : List Char :=
  let member := (Tree.part? tree .member).map Grammar.Tree.text
  object.getD elision ++ '.' :: member.getD elision

/-- Names joined by dots; anything else in the chain is left out. -/
def dottedName : Tree → List Char :=
  Grammar.Tree.fold fun tree parts =>
    match tree.kind with
    | .identifier => tree.text
    | .attributeAccess => memberName tree (ofRole? parts .object)
    | _ => elision

/-- The name of a base or default: arguments and anything that is not a name are left out. -/
def expressionName : Tree → List Char :=
  Grammar.Tree.fold fun tree parts =>
    match tree.kind with
    | .identifier => tree.text
    | .attributeAccess => memberName tree (ofRole? parts .object)
    | .subscript =>
        match ofRole? parts .value with
        | some value => value ++ "[...]".toList
        | none => elision
    | .call =>
        match ofRole? parts .callee with
        | some callee => callee ++ "(...)".toList
        | none => elision
    | _ => elision

/-- The name of a decorator; a call counts as what it calls. -/
def decoratorName : Tree → List Char :=
  Grammar.Tree.fold fun tree parts =>
    match tree.kind with
    | .identifier | .attributeAccess => dottedName tree
    | .call => (ofRole? parts .callee).getD elision
    | _ => elision

/-! ### String values -/

def stringValue? (tree : Tree) : Option (List Char) :=
  match tree.kind with
  | .string => literalValue? tree.text
  | .concatenatedString =>
      (((Tree.named tree).filter fun part => part.kind == .string).mapM fun part =>
        literalValue? part.text).map List.flatten
  | _ => none

/-! ### Annotations -/

/-- A rendered annotation, with those of its named parts. -/
structure Rendering where
  text : List Char
  arguments : List (List Char)

/-- The text of a tree with single spaces. -/
def collapsed (tree : Tree) : List Char :=
  Text.collapse tree.text

def typeText (tree : Tree) (parts : List (Tree × Rendering)) : List Char :=
  match tree.kind with
  | .type =>
      match ofNamed parts with
      | [(_, inner)] => inner.text
      | _ => collapsed tree
  | .identifier => tree.text
  | .noneLiteral => "None".toList
  | .attributeAccess => dottedName tree
  | .subscript =>
      let value := ((ofRole? parts .value).map Rendering.text).getD elision
      let arguments := (ofRole parts .index).map Rendering.text
      value ++ '[' :: commaSeparated arguments ++ [']']
  | .genericType =>
      match ofNamed parts with
      | [(_, name), (part, arguments)] =>
          if part.kind == .typeParameter then
            name.text ++ '[' :: commaSeparated arguments.arguments ++ [']']
          else collapsed tree
      | _ => collapsed tree
  | .string => (literalValue? tree.text).getD (collapsed tree)
  | .tuple => '(' :: commaSeparated ((ofElements parts).map Rendering.text) ++ [')']
  | .list => '[' :: commaSeparated ((ofElements parts).map Rendering.text) ++ [']']
  | _ => collapsed tree

def renderedType : Tree → Rendering :=
  Grammar.Tree.fold fun tree parts =>
    { text := typeText tree parts
      arguments := (ofNamed parts).map fun part => part.2.text }

/-! ### Default values -/

def defaultText : Tree → List Char :=
  Grammar.Tree.fold fun tree parts =>
    match tree.kind with
    | .noneLiteral => "None".toList
    | .trueLiteral | .falseLiteral | .integer | .float => tree.text
    | .string | .concatenatedString =>
        match stringValue? tree with
        | some value => '\'' :: value ++ ['\'']
        | none => collapsed tree
    | .list => '[' :: commaSeparated (ofElements parts) ++ [']']
    | .tuple => '(' :: commaSeparated (ofElements parts) ++ [')']
    | .dictionary => "\x7b...\x7d".toList
    | .identifier | .attributeAccess => expressionName tree
    | _ => collapsed tree

end DocHarvest.Extract
