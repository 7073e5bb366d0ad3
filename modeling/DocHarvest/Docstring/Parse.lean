import DocHarvest.Docstring.Section

/-!
Reading a docstring in the convention it is declared to follow.

Reading never fails: sections that are not known are dropped, and entries of an odd shape give
what they have.
-/

namespace DocHarvest.Docstring

open Text (Line)

/-! ### Headers such as `Args:` over indented entries -/

namespace Google

/-- The title of a header: a line without indentation that ends with a colon. -/
def header? (line : Line) : Option Line :=
  if Text.indentation line ≠ 0 then none
  else (Text.withoutLast ':' (Text.trimEnd line)).bind Text.nonBlank

def outline (lines : List Line) : Outline :=
  let (description, found) := Text.groups header? lines
  { description, sections := found.map fun (name, body) => ⟨name, body⟩ }

/-- A name, and the type in parentheses behind it if there is one. -/
def nameAndType (head : Line) : Line × Option Line :=
  let typed := (Text.withoutLast ')' head).bind fun inner =>
    (Text.splitOnce ['('] inner).bind fun (name, typeName) =>
      (Text.nonBlank name).map fun name => (name, Text.nonBlank typeName)
  typed.getD (head, none)

/-- A line that begins an entry: without indentation, with a colon after the name. -/
def parameterHead? (line : Line) : Option (Line × Line) :=
  if Text.indentation line ≠ 0 then none else Text.splitOnce [':'] (Text.trim line)

def parameters (body : List Line) : List DocParameter :=
  (Text.groups parameterHead? body).2.map fun ((head, text), more) =>
    let (name, typeName) := nameAndType (Text.trim head)
    parameterOf name typeName (text :: more)

/-- A line that begins an entry about an exception: any line without indentation. -/
def raiseHead? (line : Line) : Option (Line × List Line) :=
  if Text.isBlankText line || Text.indentation line ≠ 0 then none
  else
    match Text.splitOnce [':'] (Text.trim line) with
    | some (exception, text) => some (Text.trim exception, [text])
    | none => some (Text.trim line, [])

def raises (body : List Line) : List DocRaise :=
  (Text.groups raiseHead? body).2.map fun ((exception, text), more) =>
    raiseOf exception (text ++ more)

/-- The return value: a type before the first colon, then its description. -/
def returns (body : List Line) : Option DocReturn :=
  match body.dropWhile Text.isBlankText with
  | [] => none
  | first :: rest =>
      match Text.splitOnce [':'] (Text.trim first) with
      | some (typeName, text) => some (returnOf (Text.nonBlank typeName) (text :: rest))
      | none => some (returnOf none (first :: rest))

def topics : Topics := { parameters, returns, raises }

end Google

/-! ### Underlined section titles -/

namespace Numpy

def isUnderline (line : Line) : Bool :=
  let stripped := Text.trim line
  !stripped.isEmpty && (stripped.all (· == '-') || stripped.all (· == '='))

def isTitle (line next : Line) : Bool :=
  isUnderline next && !Text.isBlankText line && !isUnderline line

/-- Cut a docstring at its titles.  The underline belongs to the title. -/
def outline : List Line → Outline
  | [] => ⟨[], []⟩
  | [line] => ⟨[line], []⟩
  | line :: next :: rest =>
      if isTitle line next then
        let after := outline rest
        ⟨[], ⟨Text.trim line, after.description⟩ :: after.sections⟩
      else
        let after := outline (next :: rest)
        ⟨line :: after.description, after.sections⟩

/-- The line of an entry: any line without indentation that is not blank. -/
def entryHead? (line : Line) : Option Line :=
  if Text.isBlankText line || Text.indentation line ≠ 0 then none else some (Text.trim line)

def divider : List Char := " : ".toList

def parameters (body : List Line) : List DocParameter :=
  (Text.groups entryHead? body).2.map fun (head, more) =>
    match Text.splitOnce divider head with
    | some (name, typeName) => parameterOf (Text.trim name) (Text.nonBlank typeName) more
    | none => parameterOf head none more

def raises (body : List Line) : List DocRaise :=
  (Text.groups entryHead? body).2.map fun (head, more) => raiseOf head more

/-- The return value: a named type, or a type over an indented description, or a description. -/
def returns (body : List Line) : Option DocReturn :=
  match body.dropWhile Text.isBlankText with
  | [] => none
  | first :: rest =>
      match Text.splitOnce divider (Text.trim first) with
      | some (_, typeName) => some (returnOf (Text.nonBlank typeName) rest)
      | none =>
          if rest.any fun line => !Text.isBlankText line && 0 < Text.indentation line then
            some (returnOf (some (Text.trim first)) rest)
          else some (returnOf none (first :: rest))

def topics : Topics := { parameters, returns, raises }

end Numpy

/-!
### Field lists such as `:param x: ...`

Types may be given apart from what they describe, before it or after it; they are attached once
all fields have been read.
-/

namespace FieldList

/-- The key and the text of a field line. -/
def field? (line : Line) : Option (Line × Line) :=
  match Text.trim line with
  | ':' :: rest =>
      (Text.splitOnce [':'] rest).bind fun (key, text) =>
        (Text.nonBlank key).map fun key => (key, Text.trim text)
  | _ => none

/-- Cut a docstring at its field lines.  The text of a field is the first line of its section. -/
def outline (lines : List Line) : Outline :=
  let (description, found) := Text.groups field? lines
  { description, sections := found.map fun ((key, text), body) => ⟨key, text :: body⟩ }

inductive Topic where
  | parameter
  | type
  | returns
  | returnType
  | raises
  | examples
  | other
deriving DecidableEq, Repr

def Topic.ofWord (word : Line) : Topic :=
  let word := String.ofList (Text.lower word)
  if ["param", "parameter", "arg", "argument", "key", "keyword"].contains word then .parameter
  else if word == "type" then .type
  else if ["returns", "return"].contains word then .returns
  else if word == "rtype" then .returnType
  else if ["raises", "raise", "except", "exception"].contains word then .raises
  else if ["example", "examples"].contains word then .examples
  else .other

/-- The docstring so far, with the types whose owners are still to be found. -/
structure Draft where
  docstring : Docstring
  /-- Types of parameters, in the order of their fields. -/
  types : List (String × String)
  returnType : Option String

def addField (draft : Draft) (part : Section) : Draft :=
  let docstring := draft.docstring
  let (word, arguments) :=
    match Text.words part.name with
    | [] => ([], [])
    | word :: rest => (word, rest)
  let description := Text.joinFragments part.lines
  match Topic.ofWord word with
  | .parameter =>
      match arguments.reverse with
      | [] => draft
      | name :: before =>
          let typeName := Text.nonBlank (Text.join [' '] before.reverse)
          { draft with
            docstring :=
              { docstring with
                parameters := docstring.parameters ++ [parameterOf name typeName part.lines] } }
  | .type =>
      match arguments.reverse, Text.nonBlank description with
      | name :: _, some typeName =>
          { draft with
            types := draft.types ++ [(String.ofList name, String.ofList typeName)] }
      | _, _ => draft
  | .returns =>
      { draft with docstring := { docstring with returns := some (returnOf none part.lines) } }
  | .returnType =>
      { draft with returnType := (Text.nonBlank description).map String.ofList }
  | .raises =>
      let exception := arguments.reverse.headD []
      { draft with
        docstring :=
          { docstring with raises := docstring.raises ++ [raiseOf exception part.lines] } }
  | .examples =>
      { draft with
        docstring :=
          { docstring with
            examples := docstring.examples ++ exampleBlocks (dedent part.lines) } }
  | .other => draft

/-- Give a type to the first parameter of a name. -/
def attachType (parameters : List DocParameter) (name typeName : String) : List DocParameter :=
  match parameters with
  | [] => []
  | parameter :: rest =>
      if parameter.name == name then parameter.withType typeName :: rest
      else parameter :: attachType rest name typeName

def Draft.finish (draft : Draft) : Docstring :=
  let parameters := draft.types.foldl
    (fun parameters (name, typeName) => attachType parameters name typeName)
    draft.docstring.parameters
  let returns :=
    match draft.returnType with
    | none => draft.docstring.returns
    | some typeName =>
        let described := draft.docstring.returns.getD ⟨none, ""⟩
        some { described with typeName := some typeName }
  { draft.docstring with parameters, returns }

def addFields (docstring : Docstring) (parts : List Section) : Docstring :=
  (parts.foldl addField { docstring, types := [], returnType := none }).finish

end FieldList

/-! ### All conventions -/

def outline : Style → List Line → Outline
  | .google => Google.outline
  | .numpy => Numpy.outline
  | .rest => FieldList.outline

def interpret : Style → Docstring → List Section → Docstring
  | .google => addSections Google.topics
  | .numpy => addSections Numpy.topics
  | .rest => FieldList.addFields

def ofLines (style : Style) (lines : List Line) : Docstring :=
  let parts := outline style lines
  let description := String.ofList (Text.trim (Text.unlines parts.description))
  interpret style { empty with description } parts.sections

/-- Read a docstring.  A blank one says nothing. -/
def parse (style : Style) (text : String) : Docstring :=
  if Text.isBlankText text.toList then empty
  else ofLines style (Text.lines (clean text.toList))

def parse? (style : Style) (text : Option String) : Docstring :=
  match text with
  | some text => parse style text
  | none => empty

end DocHarvest.Docstring
