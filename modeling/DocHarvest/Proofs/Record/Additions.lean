import DocHarvest.Proofs.Inheritance.Groups
import DocHarvest.Record.Codec

/-!
Inherited methods over time.

Groups are opened and appended to, or read from entries in which an ancestor may occur more than
once.  What the additions so far were tells what is held: ancestors stand in the order in which
they were first mentioned, and each has everything that was added under it, in order.
-/

namespace DocHarvest.Inherited

abbrev Addition := String × List FunctionDoc

/-- What can be done with inherited methods. -/
inductive Operation where
  | ensure (ancestor : String)
  | push (ancestor : String) (method : FunctionDoc)
  | extend (ancestor : String) (methods : List FunctionDoc)
  /-- Read from entries; what was held before is given up. -/
  | decode (entries : List Addition)

def Operation.apply (inherited : Inherited) : Operation → Inherited
  | .ensure ancestor => inherited.ensure ancestor
  | .push ancestor method => inherited.push ancestor method
  | .extend ancestor methods => inherited.extend ancestor methods
  | .decode entries => ofEntries entries

/-- The additions that count after an operation. -/
def Operation.record (history : List Addition) : Operation → List Addition
  | .ensure ancestor => history ++ [(ancestor, [])]
  | .push ancestor method => history ++ [(ancestor, [method])]
  | .extend ancestor methods => history ++ [(ancestor, methods)]
  | .decode entries => entries

def perform (operations : List Operation) : Inherited :=
  operations.foldl Operation.apply empty

/-- The additions of some operations, from the last reading on; read entries are additions. -/
def additions (operations : List Operation) : List Addition :=
  operations.foldl Operation.record []

/-- The ancestors of additions in the order in which they are first mentioned. -/
def mentioned (history : List Addition) : List String :=
  (history.map Prod.fst).eraseDups

/-- Everything that is added under an ancestor, in order. -/
def addedUnder (ancestor : String) (history : List Addition) : List FunctionDoc :=
  (history.filter fun addition => addition.1 == ancestor).flatMap Prod.snd

/-- The groups that additions amount to. -/
def gathered (history : List Addition) : Inherited :=
  ⟨(mentioned history).map fun ancestor => (ancestor, addedUnder ancestor history)⟩

/-! ### Additions one by one -/

theorem addedUnder_concat (ancestor : String) (history : List Addition) (addition : Addition) :
    addedUnder ancestor (history ++ [addition]) =
      if addition.1 = ancestor then addedUnder ancestor history ++ addition.2
      else addedUnder ancestor history := by
  unfold addedUnder
  rw [List.filter_append, List.flatMap_append]
  by_cases same : addition.1 = ancestor
  · simp [same]
  · simp [same]

theorem addedUnder_eq_nil {ancestor : String} {history : List Addition}
    (unmentioned : ancestor ∉ mentioned history) : addedUnder ancestor history = [] := by
  unfold addedUnder
  have nothing : (history.filter fun addition => addition.1 == ancestor) = [] := by
    rw [List.filter_eq_nil_iff]
    intro addition present same
    rw [beq_iff_eq] at same
    subst same
    exact unmentioned (List.mem_eraseDups.mpr (List.mem_map_of_mem present))
  rw [nothing, List.flatMap_nil]

theorem mentioned_concat_of_mem {history : List Addition} {ancestor : String}
    (known : ancestor ∈ mentioned history) (methods : List FunctionDoc) :
    mentioned (history ++ [(ancestor, methods)]) = mentioned history := by
  unfold mentioned at known ⊢
  rw [List.map_append]
  exact FirstOccurrence.eraseDups_concat_of_mem (List.mem_eraseDups.mp known)

theorem mentioned_concat_of_not_mem {history : List Addition} {ancestor : String}
    (new : ancestor ∉ mentioned history) (methods : List FunctionDoc) :
    mentioned (history ++ [(ancestor, methods)]) = mentioned history ++ [ancestor] := by
  unfold mentioned at new ⊢
  rw [List.map_append]
  exact FirstOccurrence.eraseDups_concat_of_not_mem fun known =>
    new (List.mem_eraseDups.mpr known)

theorem nodup_mentioned (history : List Addition) : (mentioned history).Nodup :=
  FirstOccurrence.nodup_eraseDups _

@[simp]
theorem ancestors_gathered (history : List Addition) :
    (gathered history).ancestors = mentioned history := by
  unfold ancestors gathered
  rw [List.map_map]
  exact List.map_id _

private theorem extendGroups_known {ancestor : String} (methods : List FunctionDoc)
    {groups : List Addition} (known : ancestor ∈ groups.map Prod.fst)
    (distinct : (groups.map Prod.fst).Nodup) :
    extendGroups ancestor methods groups = groups.map fun group =>
      (group.1, if ancestor = group.1 then group.2 ++ methods else group.2) := by
  induction groups with
  | nil => cases known
  | cons group groups ih =>
      obtain ⟨name, held⟩ := group
      rw [List.map_cons, List.nodup_cons] at distinct
      rw [List.map_cons, List.mem_cons] at known
      by_cases same : name = ancestor
      · subst same
        -- no group behind the one that is found has its name
        have behind : (groups.map fun group : Addition =>
            (group.1, if name = group.1 then group.2 ++ methods else group.2)) = groups := by
          refine (List.map_congr_left ?_).trans (List.map_id groups)
          intro group present
          have other : name ≠ group.1 := fun equal =>
            distinct.1 (List.mem_map.mpr ⟨group, present, equal.symm⟩)
          rw [if_neg other]
          rfl
        rw [extendGroups, if_pos (beq_self_eq_true name), List.map_cons, behind, if_pos rfl]
      · have further := known.resolve_left fun equal => same equal.symm
        have other : ¬(name == ancestor) = true := fun equal => same (beq_iff_eq.mp equal)
        rw [extendGroups, if_neg other, List.map_cons, ih further distinct.2,
          if_neg fun equal => same equal.symm]

theorem extend_gathered (history : List Addition) (ancestor : String)
    (methods : List FunctionDoc) :
    (gathered history).extend ancestor methods = gathered (history ++ [(ancestor, methods)]) := by
  have keys : (gathered history).groups.map Prod.fst = mentioned history :=
    ancestors_gathered history
  refine congrArg Inherited.mk ?_
  by_cases known : ancestor ∈ mentioned history
  · rw [mentioned_concat_of_mem known, extendGroups_known methods (by rw [keys]; exact known)
      (by rw [keys]; exact nodup_mentioned history)]
    refine (List.map_map).trans (List.map_congr_left ?_)
    intro name _mentioned
    rw [addedUnder_concat]
    rfl
  · rw [mentioned_concat_of_not_mem known, extendGroups_new methods (by rw [keys]; exact known),
      List.map_append, List.map_singleton, addedUnder_concat, if_pos rfl,
      addedUnder_eq_nil known, List.nil_append]
    refine congrArg (· ++ _) (List.map_congr_left ?_)
    intro name member
    have other : ancestor ≠ name := fun equal => known (equal ▸ member)
    rw [addedUnder_concat, if_neg other]

theorem ofEntries_eq_gathered (entries : List Addition) : ofEntries entries = gathered entries := by
  induction entries using List.reverseRecOn with
  | nil => rfl
  | append_singleton entries entry ih =>
      rw [← extend_gathered, ← ih]
      unfold ofEntries
      rw [List.foldl_append, List.foldl_cons, List.foldl_nil]

theorem Operation.apply_gathered (history : List Addition) (operation : Operation) :
    operation.apply (gathered history) = gathered (operation.record history) := by
  cases operation with
  | ensure ancestor => exact extend_gathered history ancestor []
  | push ancestor method => exact extend_gathered history ancestor [method]
  | extend ancestor methods => exact extend_gathered history ancestor methods
  | decode entries => exact ofEntries_eq_gathered entries

theorem perform_eq_gathered (operations : List Operation) :
    perform operations = gathered (additions operations) := by
  induction operations using List.reverseRecOn with
  | nil => rfl
  | append_singleton operations operation ih =>
      unfold perform additions at ih ⊢
      rw [List.foldl_append, List.foldl_append, ih]
      exact operation.apply_gathered _

/-! ### Questions about gathered methods -/

theorem get?_gathered (history : List Addition) (ancestor : String) :
    (gathered history).get? ancestor =
      if ancestor ∈ mentioned history then some (addedUnder ancestor history) else none := by
  unfold get? gathered
  rw [List.find?_map, Option.map_map]
  change ((mentioned history).find? fun name => name == ancestor).map
    (fun name => addedUnder name history) = _
  cases found : (mentioned history).find? fun name => name == ancestor with
  | none =>
      have absent : ancestor ∉ mentioned history := fun known =>
        List.find?_eq_none.mp found ancestor known (beq_self_eq_true ancestor)
      rw [if_neg absent, Option.map_none]
  | some name =>
      have same := List.find?_some found
      rw [beq_iff_eq] at same
      subst same
      rw [if_pos (List.mem_of_find?_eq_some found), Option.map_some]

theorem providerOf?_gathered (history : List Addition) (name : String) :
    (gathered history).providerOf? name = (mentioned history).find? fun ancestor =>
      (addedUnder ancestor history).any fun method => method.name == name := by
  unfold providerOf? gathered
  rw [List.find?_map, Option.map_map]
  exact Option.map_id'

theorem containsMethod_iff (inherited : Inherited) (name : String) :
    inherited.containsMethod name = true ↔ (inherited.providerOf? name).isSome = true := by
  unfold containsMethod providerOf?
  rw [Option.isSome_map, List.find?_isSome, List.any_eq_true]

theorem methodCount_eq (inherited : Inherited) :
    inherited.methodCount = inherited.entries.length := by
  unfold methodCount entries
  simp [List.length_flatMap]

theorem methodCount_extend (inherited : Inherited) (ancestor : String)
    (methods : List FunctionDoc) :
    (inherited.extend ancestor methods).methodCount = inherited.methodCount + methods.length := by
  have whole := (entries_extend_perm inherited ancestor methods).length_eq
  rw [List.length_append, List.length_map] at whole
  rw [methodCount_eq, methodCount_eq, whole]

theorem methodCount_gathered (history : List Addition) :
    (gathered history).methodCount = (history.flatMap Prod.snd).length := by
  induction history using List.reverseRecOn with
  | nil => rfl
  | append_singleton history addition ih =>
      rw [← extend_gathered history addition.1 addition.2, methodCount_extend, ih,
        List.flatMap_append, List.length_append, List.flatMap_singleton]

/-- The groups of all ancestors but one. -/
def others (ancestor : String) (inherited : Inherited) : List Addition :=
  inherited.groups.filter fun group => group.1 != ancestor

theorem others_extend (inherited : Inherited) (ancestor : String) (methods : List FunctionDoc) :
    others ancestor (inherited.extend ancestor methods) = others ancestor inherited := by
  obtain ⟨groups⟩ := inherited
  induction groups with
  | nil => simp [others, extend, extendGroups]
  | cons group groups ih =>
      obtain ⟨name, held⟩ := group
      unfold others extend at ih ⊢
      by_cases same : name = ancestor
      · simp [extendGroups, same]
      · simp only [extendGroups, beq_iff_eq, if_neg same, List.filter_cons]
        split
        · exact congrArg _ ih
        · exact ih

/-- After any operations, the groups are those of the ancestors mentioned since the last reading, in
the order of their first mention, and each holds everything that was added under its ancestor, in
order.  Adding under an ancestor leaves all other groups as they are; a method is provided by the
first of the ancestors that hold one of its name; and no method that was added is lost or counted
twice.  What is read from an object is what its members amount to. -/
theorem groups_of_additions (operations : List Operation) :
    ((perform operations).ancestors.Nodup ∧
      (perform operations).ancestors = mentioned (additions operations)) ∧
    (∀ ancestor, (perform operations).get? ancestor =
      if ancestor ∈ mentioned (additions operations) then
        some (addedUnder ancestor (additions operations))
      else none) ∧
    (∀ ancestor method methods,
      others ancestor ((perform operations).ensure ancestor) =
        others ancestor (perform operations) ∧
      others ancestor ((perform operations).push ancestor method) =
        others ancestor (perform operations) ∧
      others ancestor ((perform operations).extend ancestor methods) =
        others ancestor (perform operations)) ∧
    (∀ name,
      ((perform operations).containsMethod name = true ↔
        ((perform operations).providerOf? name).isSome = true) ∧
      (perform operations).providerOf? name =
        (mentioned (additions operations)).find? fun ancestor =>
          (addedUnder ancestor (additions operations)).any fun method => method.name == name) ∧
    (perform operations).methodCount = ((additions operations).flatMap Prod.snd).length ∧
    ∀ members, ofJson? (.object members) =
      (members.mapM groupOfJson?).map fun entries => perform [.decode entries] := by
  refine ⟨?keys, ?lookup, ?frame, ?provider, ?count, fun members => rfl⟩
  case keys =>
    rw [perform_eq_gathered, ancestors_gathered]
    exact ⟨nodup_mentioned _, rfl⟩
  case lookup =>
    intro ancestor
    rw [perform_eq_gathered, get?_gathered]
  case frame =>
    intro ancestor method methods
    exact ⟨others_extend _ ancestor [], others_extend _ ancestor [method],
      others_extend _ ancestor methods⟩
  case provider =>
    intro name
    refine ⟨containsMethod_iff _ name, ?_⟩
    rw [perform_eq_gathered, providerOf?_gathered]
  case count =>
    rw [perform_eq_gathered, methodCount_gathered]

-- A group that was opened first comes first, whenever it is filled; reading starts anew.
example :
    (perform [.push "Old" (.ofName "lost" 1),
      .decode [("Zebra", []), ("Ape", [.ofName "a" 2]), ("Zebra", [.ofName "z" 3])],
      .ensure "Ape", .push "Zebra" (.ofName "a" 4)]).groups =
      [("Zebra", [.ofName "z" 3, .ofName "a" 4]), ("Ape", [.ofName "a" 2])] := by decide

end DocHarvest.Inherited
