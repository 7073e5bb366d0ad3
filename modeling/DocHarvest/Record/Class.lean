import DocHarvest.Record.Function

/-!
Classes, as they are declared and as inheritance completes them.

Inherited methods are grouped by the ancestor that defines them.  Groups stand in the order in which
their ancestors were first mentioned.
-/

namespace DocHarvest

/-! ### Inherited methods -/

structure Inherited where
  groups : List (String × List FunctionDoc)
deriving DecidableEq, Repr

namespace Inherited

def empty : Inherited := ⟨[]⟩

/-- Append methods to the group of an ancestor, which is opened at the end if it is new. -/
def extendGroups (ancestor : String) (methods : List FunctionDoc) :
    List (String × List FunctionDoc) → List (String × List FunctionDoc)
  | [] => [(ancestor, methods)]
  | (name, known) :: rest =>
      if name == ancestor then (name, known ++ methods) :: rest
      else (name, known) :: extendGroups ancestor methods rest

def extend (inherited : Inherited) (ancestor : String) (methods : List FunctionDoc) : Inherited :=
  ⟨extendGroups ancestor methods inherited.groups⟩

def ensure (inherited : Inherited) (ancestor : String) : Inherited :=
  inherited.extend ancestor []

def push (inherited : Inherited) (ancestor : String) (method : FunctionDoc) : Inherited :=
  inherited.extend ancestor [method]

/-- Groups collected from entries, where an ancestor may occur more than once. -/
def ofEntries (entries : List (String × List FunctionDoc)) : Inherited :=
  entries.foldl (fun inherited (ancestor, methods) => inherited.extend ancestor methods) empty

def get? (inherited : Inherited) (ancestor : String) : Option (List FunctionDoc) :=
  (inherited.groups.find? fun group => group.1 == ancestor).map Prod.snd

def groupHolds (method : String) (group : String × List FunctionDoc) : Bool :=
  group.2.any fun function => function.name == method

def containsMethod (inherited : Inherited) (method : String) : Bool :=
  inherited.groups.any (groupHolds method)

def providerOf? (inherited : Inherited) (method : String) : Option String :=
  (inherited.groups.find? (groupHolds method)).map Prod.fst

def size (inherited : Inherited) : Nat := inherited.groups.length

def isEmpty (inherited : Inherited) : Bool := inherited.groups.isEmpty

def methodCount (inherited : Inherited) : Nat :=
  (inherited.groups.flatMap Prod.snd).length

end Inherited

/-! ### Classes -/

structure ClassDoc where
  name : String
  /-- Declared bases, rendered as written. -/
  baseNames : List String
  methods : List FunctionDoc
  docstring : Docstring
  decorators : List String
  /-- The line of the definition, counted from one. -/
  line : Nat
  /-- All ancestors, closest first; set when inheritance is resolved. -/
  chain : Option (List String)
  inherited : Option Inherited
  /-- The order in which classes are searched; set for several bases only. -/
  resolutionOrder : Option (List String)
deriving DecidableEq, Repr

namespace ClassDoc

def ofName (name : String) (line : Nat) : ClassDoc :=
  { name
    baseNames := []
    methods := []
    docstring := .empty
    decorators := []
    line
    chain := none
    inherited := none
    resolutionOrder := none }

def isResolved (record : ClassDoc) : Bool :=
  record.chain.isSome

/-- Whether there is nothing to inherit from: no base, or only `object`. -/
def hasTrivialBases (record : ClassDoc) : Bool :=
  record.baseNames.isEmpty || record.baseNames == ["object"]

def method? (record : ClassDoc) (name : String) : Option FunctionDoc :=
  record.methods.find? fun method => method.name == name

def inheritedFrom (record : ClassDoc) (ancestor : String) : List FunctionDoc :=
  (record.inherited.bind fun inherited => inherited.get? ancestor).getD []

end ClassDoc

end DocHarvest
