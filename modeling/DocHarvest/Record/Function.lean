import DocHarvest.Docstring.Model

/-!
Functions and methods, with their parameters.
-/

namespace DocHarvest

inductive ParameterKind where
  | positional
  /-- Takes the positional arguments that are left. -/
  | variadic
  | keywordOnly
  /-- Takes the keyword arguments that are left. -/
  | variadicKeyword
deriving DecidableEq, Repr, Inhabited

namespace ParameterKind

def all : List ParameterKind := [.positional, .variadic, .keywordOnly, .variadicKeyword]

def token : ParameterKind → String
  | .positional => "positional"
  | .variadic => "var_positional"
  | .keywordOnly => "keyword_only"
  | .variadicKeyword => "var_keyword"

def ofToken? (token : String) : Option ParameterKind :=
  all.find? fun kind => kind.token == token

end ParameterKind

structure Parameter where
  /-- The name, with the stars of a variadic parameter. -/
  name : String
  typeText : Option String
  hasDefault : Bool
  defaultText : Option String
  kind : ParameterKind
deriving DecidableEq, Repr

namespace Parameter

def ofName (name : String) : Parameter :=
  { name
    typeText := none
    hasDefault := false
    defaultText := none
    kind := .positional }

def withType (parameter : Parameter) (type : String) : Parameter :=
  { parameter with typeText := some type }

def withDefault (parameter : Parameter) (text : String) : Parameter :=
  { parameter with hasDefault := true, defaultText := some text }

def withKind (parameter : Parameter) (kind : ParameterKind) : Parameter :=
  { parameter with kind }

end Parameter

/-- Whether a name has two underscores at both ends and something in between. -/
def isDunder (name : String) : Bool :=
  4 < name.utf8ByteSize && ['_', '_'].isPrefixOf name.toList &&
    ['_', '_'].isPrefixOf name.toList.reverse

structure FunctionDoc where
  name : String
  parameters : List Parameter
  returnType : Option String
  docstring : Docstring
  isAsync : Bool
  isStaticMethod : Bool
  isClassMethod : Bool
  isProperty : Bool
  decorators : List String
  /-- The line of the definition, counted from one. -/
  line : Nat
  isMethod : Bool
  /-- A method with a dunder name other than the constructor's. -/
  isSpecial : Bool
  isConstructor : Bool
  /-- The method of a base that this one replaces. -/
  overrides : Option String
  /-- A copy in the inherited methods of a class. -/
  isInherited : Bool
  inheritedFrom : Option String
deriving DecidableEq, Repr

namespace FunctionDoc

def ofName (name : String) (line : Nat) : FunctionDoc :=
  { name
    parameters := []
    returnType := none
    docstring := .empty
    isAsync := false
    isStaticMethod := false
    isClassMethod := false
    isProperty := false
    decorators := []
    line
    isMethod := false
    isSpecial := false
    isConstructor := false
    overrides := none
    isInherited := false
    inheritedFrom := none }

def withParameters (function : FunctionDoc) (parameters : List Parameter) : FunctionDoc :=
  { function with parameters }

def withReturn (function : FunctionDoc) (type : String) : FunctionDoc :=
  { function with returnType := some type }

def withDocstring (function : FunctionDoc) (docstring : Docstring) : FunctionDoc :=
  { function with docstring }

/-- Set the decorators and the flags that they imply. -/
def withDecorators (function : FunctionDoc) (decorators : List String) : FunctionDoc :=
  { function with
    isStaticMethod := decorators.contains "staticmethod"
    isClassMethod := decorators.contains "classmethod"
    isProperty := decorators.contains "property"
    decorators }

def asAsync (function : FunctionDoc) : FunctionDoc :=
  { function with isAsync := true }

def asMethod (function : FunctionDoc) : FunctionDoc :=
  { function with
    isMethod := true
    isConstructor := function.name == "__init__"
    isSpecial := isDunder function.name && function.name != "__init__" }

/-- The method as a descendant of its class sees it. -/
def inheritedCopy (function : FunctionDoc) (ancestor : String) : FunctionDoc :=
  { function with
    isInherited := true
    inheritedFrom := some ancestor
    overrides := none }

def parameter? (function : FunctionDoc) (name : String) : Option Parameter :=
  function.parameters.find? fun parameter => parameter.name == name

end FunctionDoc

end DocHarvest
