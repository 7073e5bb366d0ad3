import Mathlib.Data.List.Perm.Basic
import DocHarvest.Proofs.Inheritance.FirstOccurrence

/-!
Inherited methods seen as one list of entries.

An entry is a method with the ancestor whose group holds it.  Opening a group adds no entry, and
appending to a group adds entries without disturbing those of other names.  Look-ups by method name
are look-ups in the list of entries.
-/

namespace DocHarvest.Inherited

/-- All methods of all groups, each with its ancestor. -/
def entries (inherited : Inherited) : List (String × FunctionDoc) :=
  inherited.groups.flatMap fun group => group.2.map fun method => (group.1, method)

def entryNamed (name : String) (entry : String × FunctionDoc) : Bool :=
  entry.2.name == name

/-- The ancestors with a group, in the order of the groups. -/
def ancestors (inherited : Inherited) : List String :=
  inherited.groups.map Prod.fst

@[simp]
theorem entries_empty : empty.entries = [] := rfl

theorem extendGroups_new {ancestor : String} (methods : List FunctionDoc)
    {groups : List (String × List FunctionDoc)} (new : ancestor ∉ groups.map Prod.fst) :
    extendGroups ancestor methods groups = groups ++ [(ancestor, methods)] := by
  induction groups with
  | nil => rfl
  | cons group groups ih =>
      obtain ⟨name, known⟩ := group
      rw [List.map_cons, List.mem_cons, not_or] at new
      simp only [extendGroups, beq_iff_eq, if_neg (Ne.symm new.1), ih new.2, List.cons_append]

private theorem extendGroups_keys (ancestor : String) (methods : List FunctionDoc)
    (groups : List (String × List FunctionDoc)) :
    (extendGroups ancestor methods groups).map Prod.fst =
      if ancestor ∈ groups.map Prod.fst then groups.map Prod.fst
      else groups.map Prod.fst ++ [ancestor] := by
  induction groups with
  | nil => rfl
  | cons group rest ih =>
      obtain ⟨name, known⟩ := group
      by_cases same : name = ancestor
      · subst same
        simp [extendGroups]
      · have other : ancestor ≠ name := fun equal => same equal.symm
        simp only [extendGroups, beq_iff_eq, if_neg same, List.map_cons, ih, List.mem_cons, other,
          false_or]
        split
        · rfl
        · rfl

theorem ancestors_extend (inherited : Inherited) (ancestor : String)
    (methods : List FunctionDoc) :
    (inherited.extend ancestor methods).ancestors =
      if ancestor ∈ inherited.ancestors then inherited.ancestors
      else inherited.ancestors ++ [ancestor] :=
  extendGroups_keys ancestor methods inherited.groups

theorem nodup_ancestors_extend (inherited : Inherited) (ancestor : String)
    (methods : List FunctionDoc) (distinct : inherited.ancestors.Nodup) :
    (inherited.extend ancestor methods).ancestors.Nodup := by
  rw [ancestors_extend]
  split
  · exact distinct
  · rename_i fresh
    rw [List.nodup_append]
    refine ⟨distinct, List.pairwise_singleton _ ancestor, ?_⟩
    intro known member last lastMember same
    rw [List.mem_singleton] at lastMember
    subst lastMember same
    exact fresh member

private theorem extendGroups_perm (ancestor : String) (methods : List FunctionDoc)
    (groups : List (String × List FunctionDoc)) :
    ((Inherited.mk (extendGroups ancestor methods groups)).entries).Perm
      ((Inherited.mk groups).entries ++ methods.map fun method => (ancestor, method)) := by
  induction groups with
  | nil => simp [extendGroups, entries]
  | cons group rest ih =>
      obtain ⟨name, known⟩ := group
      by_cases same : name = ancestor
      · subst same
        simp only [extendGroups, beq_self_eq_true, if_true, entries, List.flatMap_cons,
          List.map_append, List.append_assoc]
        exact List.Perm.append_left _ List.perm_append_comm
      · simp only [extendGroups, beq_iff_eq, if_neg same, entries, List.flatMap_cons,
          List.append_assoc]
        exact List.Perm.append_left _ ih

theorem entries_extend_perm (inherited : Inherited) (ancestor : String)
    (methods : List FunctionDoc) :
    (inherited.extend ancestor methods).entries.Perm
      (inherited.entries ++ methods.map fun method => (ancestor, method)) :=
  extendGroups_perm ancestor methods inherited.groups

private theorem extendGroups_filter (ancestor : String) (methods : List FunctionDoc)
    (kept : String × FunctionDoc → Bool)
    (dropped : ∀ method ∈ methods, kept (ancestor, method) = false)
    (groups : List (String × List FunctionDoc)) :
    (Inherited.mk (extendGroups ancestor methods groups)).entries.filter kept =
      (Inherited.mk groups).entries.filter kept := by
  have nothing : (methods.map fun method => (ancestor, method)).filter kept = [] := by
    rw [List.filter_eq_nil_iff]
    intro entry member
    obtain ⟨method, present, rfl⟩ := List.mem_map.mp member
    rw [dropped method present]
    exact Bool.false_ne_true
  induction groups with
  | nil => simpa [extendGroups, entries] using nothing
  | cons group rest ih =>
      obtain ⟨name, known⟩ := group
      by_cases same : name = ancestor
      · subst same
        simp only [extendGroups, beq_self_eq_true, if_true, entries, List.flatMap_cons,
          List.map_append, List.filter_append, nothing, List.append_nil]
      · simp only [extendGroups, beq_iff_eq, if_neg same, entries, List.flatMap_cons,
          List.filter_append]
        exact congrArg _ ih

/-- Entries that are told apart from the appended ones keep their order. -/
theorem filter_entries_extend (inherited : Inherited) (ancestor : String)
    (methods : List FunctionDoc) (kept : String × FunctionDoc → Bool)
    (dropped : ∀ method ∈ methods, kept (ancestor, method) = false) :
    (inherited.extend ancestor methods).entries.filter kept = inherited.entries.filter kept :=
  extendGroups_filter ancestor methods kept dropped inherited.groups

@[simp]
theorem filter_entries_ensure (inherited : Inherited) (ancestor : String)
    (kept : String × FunctionDoc → Bool) :
    (inherited.ensure ancestor).entries.filter kept = inherited.entries.filter kept :=
  filter_entries_extend inherited ancestor [] kept
    (fun _method impossible => by cases impossible)

theorem filter_entries_push_other (inherited : Inherited) (ancestor name : String)
    (method : FunctionDoc) (other : method.name ≠ name) :
    (inherited.push ancestor method).entries.filter (entryNamed name) =
      inherited.entries.filter (entryNamed name) := by
  apply filter_entries_extend
  intro appended member
  rw [List.mem_singleton] at member
  subst member
  exact beq_eq_false_iff_ne.mpr other

theorem filter_entries_push_new (inherited : Inherited) (ancestor : String)
    (method : FunctionDoc)
    (new : inherited.entries.filter (entryNamed method.name) = []) :
    (inherited.push ancestor method).entries.filter (entryNamed method.name) =
      [(ancestor, method)] := by
  have whole := (entries_extend_perm inherited ancestor [method]).filter (entryNamed method.name)
  rw [List.filter_append, new] at whole
  have last : [(ancestor, method)].filter (entryNamed method.name) = [(ancestor, method)] := by
    simp [entryNamed]
  rw [List.nil_append, List.map_cons, List.map_nil, last] at whole
  exact List.perm_singleton.mp whole

private theorem groupHolds_iff (name : String) (group : String × List FunctionDoc) :
    groupHolds name group =
      (group.2.map fun method => (group.1, method)).any (entryNamed name) := by
  rw [List.any_map]
  rfl

theorem containsMethod_eq (inherited : Inherited) (name : String) :
    inherited.containsMethod name = inherited.entries.any (entryNamed name) := by
  unfold containsMethod entries
  rw [List.any_flatMap]
  congr 1
  funext group
  exact groupHolds_iff name group

theorem providerOf?_eq (inherited : Inherited) (name : String) :
    inherited.providerOf? name = (inherited.entries.find? (entryNamed name)).map Prod.fst := by
  obtain ⟨groups⟩ := inherited
  induction groups with
  | nil => rfl
  | cons group rest ih =>
      change ((group :: rest).find? (groupHolds name)).map Prod.fst = _
      change _ = (((group.2.map fun method => (group.1, method)) ++
        (Inherited.mk rest).entries).find? (entryNamed name)).map Prod.fst
      rw [List.find?_append]
      cases holds : groupHolds name group with
      | true =>
          rw [List.find?_cons_of_pos holds]
          rw [groupHolds_iff, List.any_eq_true, ← List.find?_isSome] at holds
          obtain ⟨entry, found⟩ := Option.isSome_iff_exists.mp holds
          obtain ⟨method, _present, rfl⟩ := List.mem_map.mp (List.mem_of_find?_eq_some found)
          rw [found]
          rfl
      | false =>
          rw [List.find?_cons_of_neg (by rw [holds]; exact Bool.false_ne_true)]
          rw [groupHolds_iff] at holds
          have missing : (group.2.map fun method => (group.1, method)).find?
              (entryNamed name) = none := by
            rw [List.find?_eq_none]
            intro entry member matched
            have some := List.any_eq_true.mpr ⟨entry, member, matched⟩
            rw [holds] at some
            cases some
          rw [missing, Option.none_or]
          exact ih

end DocHarvest.Inherited
