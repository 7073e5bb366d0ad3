import DocHarvest.Docstring.Margin
import DocHarvest.Docstring.Model

/-!
Docstrings cut into a description and named sections.
-/

namespace DocHarvest.Docstring

open Text (Line)

structure Section where
  name : Line
  lines : List Line
deriving DecidableEq, Repr

structure Outline where
  /-- The lines before the first section. -/
  description : List Line
  sections : List Section
deriving DecidableEq, Repr

inductive Topic where
  | parameters
  | returns
  | raises
  | examples
  | other
deriving DecidableEq, Repr

def Topic.ofTitle (title : Line) : Topic :=
  let word := String.ofList (Text.lower (Text.trim title))
  if ["args", "arguments", "parameters", "parameter"].contains word then .parameters
  else if ["returns", "return"].contains word then .returns
  else if ["raises", "exceptions"].contains word then .raises
  else if ["examples", "example"].contains word then .examples
  else .other

/-- How a titled convention reads the bodies of its sections. -/
structure Topics where
  parameters : List Line → List DocParameter
  returns : List Line → Option DocReturn
  raises : List Line → List DocRaise

/-! ### Examples -/

/-- Whether a line belongs to example code, given whether the line before it does. -/
def isCodeLine (afterCode : Bool) (line : Line) : Bool :=
  let stripped := Text.trimStart line
  !stripped.isEmpty &&
    (">>>".toList.isPrefixOf stripped || (afterCode && "...".toList.isPrefixOf stripped) ||
      0 < Text.indentation line)

/-- The maximal runs of code lines, after a run under way that is given backwards. -/
def codeRunsFrom (run : List Line) : List Line → List (List Line)
  | [] => if run.isEmpty then [] else [run.reverse]
  | line :: rest =>
      if isCodeLine (!run.isEmpty) line then codeRunsFrom (line :: run) rest
      else if run.isEmpty then codeRunsFrom [] rest
      else run.reverse :: codeRunsFrom [] rest

def exampleBlocks (lines : List Line) : List String :=
  (codeRunsFrom [] lines).map fun run => String.ofList (Text.unlines run)

/-! ### Titled sections -/

def addSection (topics : Topics) (docstring : Docstring) (part : Section) : Docstring :=
  let body := dedent part.lines
  match Topic.ofTitle part.name with
  | .parameters =>
      { docstring with parameters := docstring.parameters ++ topics.parameters body }
  | .returns => { docstring with returns := (topics.returns body).or docstring.returns }
  | .raises => { docstring with raises := docstring.raises ++ topics.raises body }
  | .examples => { docstring with examples := docstring.examples ++ exampleBlocks body }
  | .other => docstring

def addSections (topics : Topics) (docstring : Docstring) (parts : List Section) : Docstring :=
  parts.foldl (addSection topics) docstring

def parameterOf (name : Line) (typeName : Option Line) (fragments : List Line) : DocParameter :=
  { name := String.ofList name
    typeName := typeName.map String.ofList
    description := String.ofList (Text.joinFragments fragments) }

def returnOf (typeName : Option Line) (fragments : List Line) : DocReturn :=
  { typeName := typeName.map String.ofList
    description := String.ofList (Text.joinFragments fragments) }

def raiseOf (name : Line) (fragments : List Line) : DocRaise :=
  { exceptionType := String.ofList name
    description := String.ofList (Text.joinFragments fragments) }

end DocHarvest.Docstring
