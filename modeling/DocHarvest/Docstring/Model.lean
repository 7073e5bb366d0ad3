import DocHarvest.Text.Lines

/-!
The conventions in which docstrings are written, and what a docstring says in structured form.
-/

namespace DocHarvest

/-! ### Conventions -/

inductive Style where
  /-- Headers such as `Args:` over indented entries. -/
  | google
  /-- Underlined section titles. -/
  | numpy
  /-- Field lists such as `:param x: ...`. -/
  | rest
deriving DecidableEq, Repr, Inhabited

namespace Style

def all : List Style := [.google, .numpy, .rest]

def token : Style → String
  | .google => "google"
  | .numpy => "numpy"
  | .rest => "rest"

def ofToken? (token : String) : Option Style :=
  all.find? fun style => style.token == token

/-- The convention a word stands for; capital letters and blanks around it do not matter. -/
def parse? (text : String) : Option Style :=
  ofToken? (String.ofList ((Text.trim text.toList).map Char.toLower))

end Style

/-! ### What a docstring says -/

structure DocParameter where
  name : String
  typeName : Option String
  description : String
deriving DecidableEq, Repr

structure DocReturn where
  typeName : Option String
  description : String
deriving DecidableEq, Repr

structure DocRaise where
  exceptionType : String
  description : String
deriving DecidableEq, Repr

structure Docstring where
  /-- Free text before the first section. -/
  description : String
  parameters : List DocParameter
  returns : Option DocReturn
  raises : List DocRaise
  examples : List String
deriving DecidableEq, Repr

namespace DocParameter

def ofDescription (name description : String) : DocParameter :=
  { name, typeName := none, description }

def withType (parameter : DocParameter) (typeName : String) : DocParameter :=
  { parameter with typeName := some typeName }

end DocParameter

namespace Docstring

def empty : Docstring :=
  { description := ""
    parameters := []
    returns := none
    raises := []
    examples := [] }

instance : Inhabited Docstring := ⟨empty⟩

def isEmpty (docstring : Docstring) : Bool :=
  docstring.description.isEmpty && docstring.parameters.isEmpty && docstring.returns.isNone &&
    docstring.raises.isEmpty && docstring.examples.isEmpty

/-- The first documented parameter of a name. -/
def parameter? (docstring : Docstring) (name : String) : Option DocParameter :=
  docstring.parameters.find? fun parameter => parameter.name == name

end Docstring

end DocHarvest
