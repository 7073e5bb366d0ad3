import DocHarvest.Docstring.Parse
import DocHarvest.Extract.Render
import DocHarvest.Record.Batch

/-!
Functions and classes out of trees.

Only definitions at the top level of a module count, and the functions directly in a class body;
definitions inside other definitions are passed over.
-/

namespace DocHarvest.Extract

open Program (Kind Role Tree)

/-! ### Parameters -/

def annotate (tree : Tree) (parameter : Parameter) : Parameter :=
  match Tree.part? tree .type with
  | some typed => parameter.withType (String.ofList (renderedType typed).text)
  | none => parameter

/-- The parameter of a tree, by itself.  Separators and patterns are none. -/
def parameterOf? : Tree → Option Parameter :=
  Grammar.Tree.fold fun tree parts =>
    let named := Parameter.ofName (String.ofList tree.text)
    match tree.kind with
    | .identifier => some named
    | .listSplatPattern => some (named.withKind .variadic)
    | .dictionarySplatPattern => some (named.withKind .variadicKeyword)
    | .typedParameter =>
        match ofNamed parts with
        | (_, inner) :: _ => inner.map (annotate tree)
        | [] => none
    | .defaultParameter | .typedDefaultParameter =>
        (Tree.part? tree .name).map fun name =>
          let parameter := annotate tree (Parameter.ofName (String.ofList name.text))
          match Tree.part? tree .value with
          | some value => parameter.withDefault (String.ofList (defaultText value))
          | none => parameter
    | _ => none

/-- The parameters of a signature.  After a bare star or a variadic parameter, the others can be
given by keyword only. -/
def parametersFrom (keywordOnly : Bool) : List Tree → List Parameter
  | [] => []
  | part :: rest =>
      match part.kind with
      | .keywordSeparator => parametersFrom true rest
      | .positionalSeparator | .comment => parametersFrom keywordOnly rest
      | _ =>
          match parameterOf? part with
          | none => parametersFrom keywordOnly rest
          | some parameter =>
              match parameter.kind with
              | .variadic => parameter :: parametersFrom true rest
              | .positional =>
                  (if keywordOnly then parameter.withKind .keywordOnly else parameter) ::
                    parametersFrom keywordOnly rest
              | _ => parameter :: parametersFrom keywordOnly rest

def parameters (tree : Tree) : List Parameter :=
  parametersFrom false (Tree.named tree)

/-! ### Docstrings -/

/-- The docstring literal of a module or block: its first statement, if that is a string. -/
def docstringText? (body : Tree) : Option String :=
  match (Tree.named body).find? fun part => part.kind != .comment with
  | none => none
  | some first =>
      match first.kind, Tree.named first with
      | .expressionStatement, [expression] =>
          (stringValue? expression).map fun value => String.ofList (Docstring.normalize value)
      | _, _ => none

def bodyDocstring (style : Style) (definition : Tree) : Docstring :=
  Docstring.parse? style ((Tree.part? definition .body).bind docstringText?)

/-! ### Definitions -/

def decorators (tree : Tree) : List String :=
  ((Tree.shown tree).filter fun part => part.kind == .decorator).map fun decorator =>
    match Tree.named decorator with
    | expression :: _ => String.ofList (decoratorName expression)
    | [] => String.ofList elision

/-- The bases of a class, in source order; keyword arguments are none. -/
def bases (arguments : Tree) : List String :=
  ((Tree.named arguments).filter fun part =>
    part.kind != .keywordArgument && part.kind != .comment).map fun part =>
      String.ofList (expressionName part)

def definedName (definition : Tree) : String :=
  match Tree.part? definition .name with
  | some name => String.ofList name.text
  | none => ""

/-- The line of a definition, counted from one. -/
def definitionLine (definition : Tree) : Nat :=
  definition.start.line + 1

def function (style : Style) (definition : Tree) (decorators : List String) : FunctionDoc :=
  let signature :=
    match Tree.part? definition .parameters with
    | some list => parameters list
    | none => []
  let plain := ((FunctionDoc.ofName (definedName definition) (definitionLine definition)).withParameters
    signature).withDecorators decorators |>.withDocstring (bodyDocstring style definition)
  let returning :=
    match Tree.part? definition .returnType with
    | some typed => plain.withReturn (String.ofList (renderedType typed).text)
    | none => plain
  match Tree.shown definition with
  | first :: _ => if first.kind == .literal "async" then returning.asAsync else returning
  | [] => returning

/-- A function definition with its decorators, bare or decorated. -/
def functionDefinition? (tree : Tree) : Option (Tree × List String) :=
  match tree.kind with
  | .functionDefinition => some (tree, [])
  | .decoratedDefinition =>
      match Tree.part? tree .definition with
      | some definition =>
          if definition.kind == .functionDefinition then some (definition, decorators tree)
          else none
      | none => none
  | _ => none

def classDefinition? (tree : Tree) : Option (Tree × List String) :=
  match tree.kind with
  | .classDefinition => some (tree, [])
  | .decoratedDefinition =>
      match Tree.part? tree .definition with
      | some definition =>
          if definition.kind == .classDefinition then some (definition, decorators tree)
          else none
      | none => none
  | _ => none

def functions (style : Style) (statements : List Tree) : List FunctionDoc :=
  (statements.filterMap functionDefinition?).map fun (definition, decorators) =>
    function style definition decorators

def classDoc (style : Style) (definition : Tree) (decorators : List String) : ClassDoc :=
  let body :=
    match Tree.part? definition .body with
    | some block => Tree.named block
    | none => []
  { ClassDoc.ofName (definedName definition) (definitionLine definition) with
    baseNames :=
      match Tree.part? definition .bases with
      | some arguments => bases arguments
      | none => []
    methods := (functions style body).map FunctionDoc.asMethod
    docstring := bodyDocstring style definition
    decorators }

def classes (style : Style) (statements : List Tree) : List ClassDoc :=
  (statements.filterMap classDefinition?).map fun (definition, decorators) =>
    classDoc style definition decorators

def moduleDoc (style : Style) (path : String) (root : Tree) : FileDoc :=
  { path
    moduleDocstring := (docstringText? root).map fun text => Docstring.parse style text
    functions := functions style (Tree.named root)
    classes := classes style (Tree.named root) }

end DocHarvest.Extract
