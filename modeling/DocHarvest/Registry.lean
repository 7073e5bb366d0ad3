import DocHarvest.Record.Class

/-!
The classes of one batch, looked up by name, and inheritance among them.

The index of a registry is part of it, and leads from each name to the class registered last under
it.  A class is completed in its place, after its bases and at most once.  A base that is not in the
batch is passed over, and so is one whose completion is under way, so that cycles do no harm.
-/

namespace DocHarvest

/-! ### Registration -/

namespace Registry

/-- The position of the last class of a name, in a list that begins at a position. -/
def lastPosition? (name : String) : (start : Nat) → List ClassDoc → Option Nat
  | _, [] => none
  | start, record :: rest =>
      (lastPosition? name (start + 1) rest).or
        (if record.name == name then some start else none)

theorem lastPosition?_append (name : String) (left right : List ClassDoc) (start : Nat) :
    lastPosition? name start (left ++ right) =
      (lastPosition? name (start + left.length) right).or (lastPosition? name start left) := by
  induction left generalizing start with
  | nil => exact (Option.or_none).symm
  | cons record rest ih =>
      rw [List.cons_append, lastPosition?, lastPosition?, ih, Option.or_assoc, List.length_cons]
      congr 2
      omega

theorem lastPosition?_concat (name : String) (classes : List ClassDoc) (record : ClassDoc) :
    lastPosition? name 0 (classes ++ [record]) =
      if record.name == name then some classes.length else lastPosition? name 0 classes := by
  rw [lastPosition?_append, Nat.zero_add, lastPosition?, lastPosition?, Option.none_or]
  split
  · rfl
  · rfl

theorem lastPosition?_congr (name : String) {left right : List ClassDoc}
    (same : left.map ClassDoc.name = right.map ClassDoc.name) (start : Nat) :
    lastPosition? name start left = lastPosition? name start right := by
  induction left generalizing right start with
  | nil =>
      cases right with
      | nil => rfl
      | cons record rest => cases same
  | cons record rest ih =>
      cases right with
      | nil => cases same
      | cons other others =>
          rw [List.map_cons, List.map_cons, List.cons.injEq] at same
          unfold lastPosition?
          rw [ih same.2, same.1]

end Registry

/-- Classes in the order of their registration, with an index of their names. -/
structure Registry where
  classes : List ClassDoc
  index : String → Option Nat
  indexed : ∀ name, index name = Registry.lastPosition? name 0 classes

namespace Registry

def empty : Registry where
  classes := []
  index _ := none
  indexed _ := rfl

/-- Add a class at the end.  From now on its name stands for it. -/
def register (registry : Registry) (record : ClassDoc) : Registry where
  classes := registry.classes ++ [record]
  index name := if record.name == name then some registry.classes.length else registry.index name
  indexed name := by rw [lastPosition?_concat, registry.indexed]

@[simp]
theorem register_classes (registry : Registry) (record : ClassDoc) :
    (registry.register record).classes = registry.classes ++ [record] := rfl

def ofList (classes : List ClassDoc) : Registry :=
  classes.foldl register empty

def size (registry : Registry) : Nat := registry.classes.length

def isEmpty (registry : Registry) : Bool := registry.classes.isEmpty

def position? (registry : Registry) (name : String) : Option Nat :=
  registry.index name

/-- The class that a name stands for: the one registered last. -/
def get? (registry : Registry) (name : String) : Option ClassDoc :=
  (registry.position? name).bind fun position => registry.classes[position]?

end Registry

/-! ### What a class gathers -/

/-- Dunder methods that are inherited like others. -/
def propagatedDunders : List String := ["__str__", "__repr__"]

def propagates (name : String) : Bool :=
  !isDunder name || propagatedDunders.contains name

structure Heritage where
  /-- Ancestors, closest first. -/
  chain : List String
  inherited : Inherited
  /-- Names of declared methods with the base methods that they replace. -/
  overrides : List (String × String)
deriving DecidableEq, Repr

namespace Heritage

def empty : Heritage := ⟨[], .empty, []⟩

/-- Add an ancestor to the chain of a class, unless it is there or is the class itself. -/
def addAncestor (self : String) (chain : List String) (ancestor : String) : List String :=
  if ancestor == self || chain.contains ancestor then chain else chain ++ [ancestor]

/-- Take over a method that a base has, from itself or from `ancestor`. -/
def addMethod (declared : List String) (base ancestor : String) (heritage : Heritage)
    (method : FunctionDoc) : Heritage :=
  if !propagates method.name then heritage
  else if declared.contains method.name then
    if heritage.overrides.any fun entry => entry.1 == method.name then heritage
    else
      { heritage with
        overrides := heritage.overrides ++ [(method.name, base ++ "." ++ method.name)] }
  else if heritage.inherited.containsMethod method.name then heritage
  else
    { heritage with inherited := heritage.inherited.push ancestor (method.inheritedCopy ancestor) }

/-- Take over what a base has: its place in the chain, its own methods, then those that it inherits
from further up. -/
def addBase (self : ClassDoc) (base : String) (record : ClassDoc) (heritage : Heritage) : Heritage :=
  let declared := self.methods.map FunctionDoc.name
  let chain := (base :: record.chain.getD []).foldl (addAncestor self.name) heritage.chain
  let opened := { heritage with chain, inherited := heritage.inherited.ensure base }
  let own := record.methods.foldl (addMethod declared base base) opened
  let further := (record.inherited.getD .empty).groups.filter fun group => group.1 != base
  further.foldl
    (fun heritage (ancestor, methods) => methods.foldl (addMethod declared base ancestor) heritage)
    own

/-- The order in which classes are searched: the class, its bases, then the other ancestors. -/
def resolutionOrder (self : String) (bases chain : List String) : List String :=
  (bases ++ chain).foldl
    (fun order name => if order.contains name then order else order ++ [name]) [self]

def complete (heritage : Heritage) (record : ClassDoc) : ClassDoc :=
  { record with
    methods := record.methods.map fun method =>
      { method with overrides := heritage.overrides.lookup method.name }
    chain := some heritage.chain
    inherited := some heritage.inherited
    resolutionOrder :=
      if 1 < record.baseNames.length then
        some (resolutionOrder record.name record.baseNames heritage.chain)
      else record.resolutionOrder }

theorem map_name_modify (heritage : Heritage) (classes : List ClassDoc) (position : Nat) :
    (classes.modify position heritage.complete).map ClassDoc.name = classes.map ClassDoc.name := by
  apply List.ext_getElem?
  intro other
  rw [List.getElem?_map, List.getElem?_map, List.getElem?_modify]
  by_cases here : position = other
  · cases classes[other]? with
    | none => rfl
    | some record => simp [here, complete]
  · simp [here]

end Heritage

/-! ### Completion -/

namespace Registry

/-- Complete the class at a position in its place.  It keeps its name, so the index stays. -/
def completeAt (registry : Registry) (position : Nat) (heritage : Heritage) : Registry where
  classes := registry.classes.modify position heritage.complete
  index := registry.index
  indexed name := by
    rw [registry.indexed, lastPosition?_congr name (heritage.map_name_modify _ position)]

@[simp]
theorem completeAt_classes (registry : Registry) (position : Nat) (heritage : Heritage) :
    (registry.completeAt position heritage).classes =
      registry.classes.modify position heritage.complete := rfl

@[simp]
theorem size_completeAt (registry : Registry) (position : Nat) (heritage : Heritage) :
    (registry.completeAt position heritage).size = registry.size :=
  List.length_modify _ _ _

/-- Complete the class at a position, and before it its bases.  The positions of `opened` are
under way; no more than `depth` further ones are. -/
def resolveAt : (depth : Nat) → (opened : List Nat) → Registry → (position : Nat) → Registry
  | 0, _, registry, _ => registry
  | depth + 1, opened, registry, position =>
      match registry.classes[position]? with
      | none => registry
      | some record =>
          if record.isResolved || record.hasTrivialBases || opened.contains position then registry
          else
            let (registry, heritage) := record.baseNames.foldl
              (fun (registry, heritage) base =>
                match registry.position? base with
                | none => (registry, heritage)
                | some source =>
                    if (position :: opened).contains source then (registry, heritage)
                    else
                      let registry := resolveAt depth (position :: opened) registry source
                      match registry.classes[source]? with
                      | none => (registry, heritage)
                      | some found => (registry, heritage.addBase record base found))
              (registry, Heritage.empty)
            registry.completeAt position heritage

def resolve (registry : Registry) : Registry :=
  (List.range registry.size).foldl (resolveAt registry.size []) registry

end Registry

end DocHarvest
