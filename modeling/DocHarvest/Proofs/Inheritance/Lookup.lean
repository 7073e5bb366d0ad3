import Mathlib.Data.List.Induction
import Mathlib.Data.List.Nodup
import DocHarvest.Registry

/-!
Names and positions of registered classes.

Completing a class changes nothing of its declaration: its name, its bases and its methods up to
their override tags.  What a name stands for therefore never changes while classes are completed.
Where names are distinct, each class is what its name stands for.
-/

namespace DocHarvest

namespace ClassDoc

/-- A class as it was declared, without anything that inheritance adds. -/
def declaration (record : ClassDoc) : ClassDoc :=
  { record with
    methods := record.methods.map fun method => { method with overrides := none }
    chain := none
    inherited := none
    resolutionOrder := none }

variable {left right : ClassDoc}

theorem name_of_declaration (same : left.declaration = right.declaration) :
    left.name = right.name := by
  have names := congrArg ClassDoc.name same
  exact names

theorem baseNames_of_declaration (same : left.declaration = right.declaration) :
    left.baseNames = right.baseNames := by
  have bases := congrArg ClassDoc.baseNames same
  exact bases

theorem hasTrivialBases_of_declaration (same : left.declaration = right.declaration) :
    left.hasTrivialBases = right.hasTrivialBases := by
  unfold hasTrivialBases
  rw [baseNames_of_declaration same]

private theorem method?_declaration (record : ClassDoc) (name : String) :
    record.declaration.method? name =
      (record.method? name).map fun method => { method with overrides := none } := by
  unfold declaration method?
  rw [List.find?_map]
  rfl

theorem inheritedCopy_of_declaration (same : left.declaration = right.declaration)
    (name ancestor : String) :
    (left.method? name).map (fun method => method.inheritedCopy ancestor) =
      (right.method? name).map (fun method => method.inheritedCopy ancestor) := by
  have declared := congrArg (fun record => (record.method? name).map
    fun method => method.inheritedCopy ancestor) same
  simp only [method?_declaration, Option.map_map] at declared
  exact declared

theorem methodNames_of_declaration (same : left.declaration = right.declaration) :
    left.methods.map FunctionDoc.name = right.methods.map FunctionDoc.name := by
  have names := congrArg (fun record => record.methods.map FunctionDoc.name) same
  simp only [declaration, List.map_map] at names
  exact names

end ClassDoc

@[simp]
theorem Heritage.complete_declaration (heritage : Heritage) (record : ClassDoc) :
    (heritage.complete record).declaration = record.declaration := by
  unfold complete ClassDoc.declaration
  simp only [List.map_map]
  rfl

namespace Registry

/-- The classes as they were declared. -/
def declarations (registry : Registry) : List ClassDoc :=
  registry.classes.map ClassDoc.declaration

/-- No two classes share a name. -/
def DistinctNames (registry : Registry) : Prop :=
  (registry.classes.map ClassDoc.name).Nodup

theorem position?_eq (registry : Registry) (name : String) :
    registry.position? name = lastPosition? name 0 registry.classes :=
  registry.indexed name

/-- A registry is given by its classes. -/
theorem ext_classes {left right : Registry} (same : left.classes = right.classes) :
    left = right := by
  have index : left.index = right.index := by
    funext name
    rw [left.indexed, right.indexed, same]
  cases left
  cases right
  cases same
  cases index
  rfl

@[simp]
theorem ofList_classes (classes : List ClassDoc) : (ofList classes).classes = classes := by
  induction classes using List.reverseRecOn with
  | nil => rfl
  | append_singleton classes record ih =>
      unfold ofList at ih ⊢
      rw [List.foldl_append, List.foldl_cons, List.foldl_nil, register_classes, ih]

theorem size_ofList (classes : List ClassDoc) : (ofList classes).size = classes.length :=
  congrArg List.length (ofList_classes classes)

theorem declarations_ofList (classes : List ClassDoc) :
    (ofList classes).declarations = classes.map ClassDoc.declaration := by
  unfold declarations
  rw [ofList_classes]

theorem position?_congr {left right : Registry} (same : left.declarations = right.declarations)
    (name : String) : left.position? name = right.position? name := by
  have names := congrArg (List.map ClassDoc.name) same
  simp only [declarations, List.map_map] at names
  rw [position?_eq, position?_eq]
  exact lastPosition?_congr name names 0

theorem size_congr {left right : Registry} (same : left.declarations = right.declarations) :
    left.size = right.size := by
  have lengths := congrArg List.length same
  simp only [declarations, List.length_map] at lengths
  exact lengths

theorem declaration_congr {left right : Registry} (same : left.declarations = right.declarations)
    (position : Nat) :
    (left.classes[position]?).map ClassDoc.declaration =
      (right.classes[position]?).map ClassDoc.declaration := by
  rw [← List.getElem?_map, ← List.getElem?_map]
  exact congrArg (fun records => records[position]?) same

theorem class_congr {left right : Registry} (same : left.declarations = right.declarations)
    {position : Nat} {record : ClassDoc} (here : left.classes[position]? = some record) :
    ∃ other, right.classes[position]? = some other ∧ other.declaration = record.declaration := by
  have declared := declaration_congr same position
  rw [here, Option.map_some, eq_comm, Option.map_eq_some_iff] at declared
  exact declared

theorem DistinctNames.congr {left right : Registry}
    (same : left.declarations = right.declarations) (distinct : left.DistinctNames) :
    right.DistinctNames := by
  have names := congrArg (List.map ClassDoc.name) same
  simp only [declarations, List.map_map] at names
  unfold DistinctNames at distinct ⊢
  change right.classes.map (ClassDoc.name ∘ ClassDoc.declaration) |>.Nodup
  rw [← names]
  exact distinct

/-! ### Completing a class in its place -/

theorem completeAt_eq_set {registry : Registry} {position : Nat} {record : ClassDoc}
    (here : registry.classes[position]? = some record) {heritage : Heritage} :
    (registry.completeAt position heritage).classes =
      registry.classes.set position (heritage.complete record) := by
  rw [completeAt_classes, List.modify_eq_set_getElem?, here]
  rfl

theorem completeAt_same {registry : Registry} {position : Nat} {record : ClassDoc}
    (here : registry.classes[position]? = some record) (heritage : Heritage) :
    (registry.completeAt position heritage).classes[position]? =
      some (heritage.complete record) := by
  rw [completeAt_eq_set here, List.getElem?_set_self (List.getElem?_eq_some_iff.mp here).1]

theorem completeAt_other (registry : Registry) {position other : Nat} (heritage : Heritage)
    (apart : position ≠ other) :
    (registry.completeAt position heritage).classes[other]? = registry.classes[other]? := by
  rw [completeAt_classes, List.getElem?_modify_ne _ _ apart]

theorem declarations_completeAt (registry : Registry) (position : Nat) (heritage : Heritage) :
    (registry.completeAt position heritage).declarations = registry.declarations := by
  apply List.ext_getElem?
  intro other
  unfold declarations
  rw [List.getElem?_map, List.getElem?_map]
  by_cases apart : position = other
  · subst apart
    cases here : registry.classes[position]? with
    | none =>
        rw [completeAt_classes, List.getElem?_modify_eq, here]
        rfl
    | some record =>
        rw [completeAt_same here, Option.map_some, Option.map_some, heritage.complete_declaration]
  · rw [completeAt_other registry heritage apart]

/-! ### Names -/

private theorem lastPosition?_some {name : String} {classes : List ClassDoc} {start position : Nat}
    (found : lastPosition? name start classes = some position) :
    ∃ offset record, position = start + offset ∧ classes[offset]? = some record ∧
      record.name = name := by
  induction classes generalizing start with
  | nil => cases found
  | cons record rest ih =>
      unfold lastPosition? at found
      cases later : lastPosition? name (start + 1) rest with
      | some other =>
          rw [later, Option.some_or, Option.some.injEq] at found
          subst found
          obtain ⟨offset, holder, place, held, named⟩ := ih later
          exact ⟨offset + 1, holder, by omega, held, named⟩
      | none =>
          rw [later, Option.none_or] at found
          split at found
          · rename_i named
            cases found
            exact ⟨0, record, rfl, rfl, beq_iff_eq.mp named⟩
          · cases found

theorem class_of_position? {registry : Registry} {name : String} {position : Nat}
    (found : registry.position? name = some position) :
    ∃ record, registry.classes[position]? = some record ∧ record.name = name := by
  rw [position?_eq] at found
  obtain ⟨offset, record, place, held, named⟩ := lastPosition?_some found
  rw [Nat.zero_add] at place
  subst place
  exact ⟨record, held, named⟩

theorem lt_size_of_position? {registry : Registry} {name : String} {position : Nat}
    (place : registry.position? name = some position) : position < registry.size := by
  obtain ⟨_record, here, _named⟩ := class_of_position? place
  exact (List.getElem?_eq_some_iff.mp here).1

private theorem lastPosition?_isSome (name : String) (classes : List ClassDoc) (start : Nat)
    (member : name ∈ classes.map ClassDoc.name) :
    (lastPosition? name start classes).isSome = true := by
  induction classes generalizing start with
  | nil => cases member
  | cons record rest ih =>
      unfold lastPosition?
      rw [List.map_cons, List.mem_cons] at member
      rcases member with here | later
      · have named : (record.name == name) = true := beq_iff_eq.mpr here.symm
        rw [if_pos named]
        cases lastPosition? name (start + 1) rest with
        | none => rfl
        | some _ => rfl
      · obtain ⟨position, found⟩ := Option.isSome_iff_exists.mp (ih (start + 1) later)
        rw [found]
        rfl

/-- Where names are distinct, a class stands where its name is looked up. -/
theorem position?_of_distinct {registry : Registry} (distinct : registry.DistinctNames)
    {position : Nat} {record : ClassDoc} (here : registry.classes[position]? = some record) :
    registry.position? record.name = some position := by
  have member : record.name ∈ registry.classes.map ClassDoc.name :=
    List.mem_map_of_mem (List.mem_of_getElem? here)
  obtain ⟨found, place⟩ := Option.isSome_iff_exists.mp
    (lastPosition?_isSome record.name registry.classes 0 member)
  rw [← position?_eq] at place
  obtain ⟨other, there, named⟩ := class_of_position? place
  have bound : found < (registry.classes.map ClassDoc.name).length := by
    rw [List.length_map]
    exact (List.getElem?_eq_some_iff.mp there).1
  have same : (registry.classes.map ClassDoc.name)[found]? =
      (registry.classes.map ClassDoc.name)[position]? := by
    rw [List.getElem?_map, List.getElem?_map, there, here, Option.map_some, Option.map_some, named]
  have equal := (List.getElem?_inj bound distinct).mp same
  rw [← equal]
  exact place

theorem get?_of_distinct {registry : Registry} (distinct : registry.DistinctNames)
    {position : Nat} {record : ClassDoc} (here : registry.classes[position]? = some record) :
    registry.get? record.name = some record := by
  unfold get?
  rw [position?_of_distinct distinct here, Option.bind_some, here]

theorem get?_eq_some {registry : Registry} {name : String} {record : ClassDoc}
    (found : registry.get? name = some record) :
    record.name = name ∧ ∃ position, registry.position? name = some position ∧
      registry.classes[position]? = some record := by
  unfold get? at found
  rw [Option.bind_eq_some_iff] at found
  obtain ⟨position, place, held⟩ := found
  obtain ⟨other, there, named⟩ := class_of_position? place
  rw [held, Option.some.injEq] at there
  subst there
  exact ⟨named, position, place, held⟩

theorem get?_of_position? {registry : Registry} {name : String} {position : Nat}
    (place : registry.position? name = some position) :
    registry.get? name = registry.classes[position]? := by
  unfold get?
  rw [place, Option.bind_some]

theorem get?_declaration_congr {left right : Registry}
    (same : left.declarations = right.declarations) (name : String) :
    (left.get? name).map ClassDoc.declaration = (right.get? name).map ClassDoc.declaration := by
  unfold get?
  rw [position?_congr same name]
  cases right.position? name with
  | none => rfl
  | some position => exact declaration_congr same position

theorem get?_congr {left right : Registry} (same : left.declarations = right.declarations)
    {name : String} {record : ClassDoc} (found : left.get? name = some record) :
    ∃ other, right.get? name = some other ∧ other.declaration = record.declaration := by
  have declared := get?_declaration_congr same name
  rw [found, Option.map_some, eq_comm, Option.map_eq_some_iff] at declared
  exact declared

theorem get?_isSome_congr {left right : Registry} (same : left.declarations = right.declarations)
    (name : String) : (left.get? name).isSome = (right.get? name).isSome := by
  have declared := congrArg Option.isSome (get?_declaration_congr same name)
  rwa [Option.isSome_map, Option.isSome_map] at declared

theorem get?_none_congr {left right : Registry} (same : left.declarations = right.declarations)
    {name : String} (missing : left.get? name = none) : right.get? name = none := by
  rw [← Option.not_isSome_iff_eq_none, ← get?_isSome_congr same, missing]
  exact Bool.false_ne_true

theorem position?_eq_none {registry : Registry} {name : String}
    (missing : registry.get? name = none) : registry.position? name = none := by
  cases place : registry.position? name with
  | none => rfl
  | some position =>
      obtain ⟨record, here, _named⟩ := class_of_position? place
      rw [get?_of_position? place, here] at missing
      cases missing

end Registry

end DocHarvest
