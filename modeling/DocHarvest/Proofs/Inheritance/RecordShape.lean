import DocHarvest.Proofs.Inheritance.Completion

/-!
The shape of a completed class.

Nothing is assumed of the batch: classes may share names, bases may form cycles, and records may
come with chains and inherited methods of their own.  A class that resolution completes has the
shape all the same, since each part of it is kept by every base that is taken over.
-/

namespace DocHarvest

/-- The shape of a class that was completed with a chain and inherited methods. -/
structure ClassDoc.WellShaped (record : ClassDoc) (chain : List String)
    (inherited : Inherited) : Prop where
  chainDistinct : chain.Nodup
  chainProper : record.name ∉ chain
  groupsDistinct : (inherited.groups.map Prod.fst).Nodup
  namesDistinct : ((inherited.groups.flatMap Prod.snd).map FunctionDoc.name).Nodup
  undeclared : ∀ group ∈ inherited.groups, ∀ method ∈ group.2,
    method.name ∉ record.methods.map FunctionDoc.name
  undundered : ∀ group ∈ inherited.groups, ∀ method ∈ group.2,
    isDunder method.name = true → method.name = "__str__" ∨ method.name = "__repr__"
  marked : ∀ group ∈ inherited.groups, ∀ method ∈ group.2,
    method.isInherited = true ∧ method.inheritedFrom = some group.1 ∧ method.overrides = none
  ordered : 2 ≤ record.baseNames.length →
    ∃ order, record.resolutionOrder = some order ∧ order.Nodup ∧
      order.head? = some record.name ∧
      (∀ name, name ∈ order ↔
        name = record.name ∨ name ∈ record.baseNames ∨ name ∈ chain) ∧
      ∃ front back, order = front ++ back ∧
        (∀ name, name ∈ front ↔ name = record.name ∨ name ∈ record.baseNames) ∧
        (∀ name ∈ back, name ∈ chain ∧ name ∉ record.baseNames)

theorem dunder_of_propagates {name : String} (spreads : propagates name = true)
    (dunder : isDunder name = true) : name = "__str__" ∨ name = "__repr__" := by
  refine (propagates_iff.mp spreads).resolve_left ?_
  rw [dunder]
  exact nofun

theorem Inherited.mem_entries {inherited : Inherited} {group : String × List FunctionDoc}
    {method : FunctionDoc} (listed : group ∈ inherited.groups) (member : method ∈ group.2) :
    (group.1, method) ∈ inherited.entries :=
  List.mem_flatMap.mpr ⟨group, listed, List.mem_map.mpr ⟨method, member, rfl⟩⟩

theorem Inherited.methods_eq (inherited : Inherited) :
    inherited.groups.flatMap Prod.snd = inherited.entries.map Prod.snd := by
  unfold entries
  rw [List.map_flatMap]
  congr 1
  funext group
  rw [List.map_map]
  exact (List.map_id _).symm

namespace Heritage

variable {declared : List String} {offers : List Offer} {heritage : Heritage}

theorem Gathered.offer_of_mem (gathered : Gathered declared offers heritage)
    {entry : String × FunctionDoc} (member : entry ∈ heritage.inherited.entries) :
    propagates entry.2.name = true ∧ entry.2.name ∉ declared ∧
      ∃ offer, Offer.first? offers entry.2.name = some offer ∧ entry = offer.entry := by
  have kept : entry ∈ heritage.inherited.entries.filter
      (Inherited.entryNamed entry.2.name) :=
    List.mem_filter.mpr ⟨member, beq_self_eq_true _⟩
  rw [gathered.stored] at kept
  split at kept
  · rename_i admitted
    rw [Bool.and_eq_true, Bool.not_eq_true', ← Bool.not_eq_true, List.contains_iff_mem] at admitted
    rw [Option.mem_toList, Option.map_eq_some_iff] at kept
    obtain ⟨offer, found, same⟩ := kept
    exact ⟨admitted.1, admitted.2, offer, found, same.symm⟩
  · cases kept

theorem Gathered.names_nodup (gathered : Gathered declared offers heritage) :
    (heritage.inherited.entries.map fun entry => entry.2.name).Nodup := by
  rw [List.nodup_iff_count_le_one]
  intro name
  have counted : (heritage.inherited.entries.map fun entry => entry.2.name).count name =
      (heritage.inherited.entries.filter (Inherited.entryNamed name)).length := by
    rw [List.count, List.countP_map, List.countP_eq_length_filter]
    rfl
  rw [counted, gathered.stored]
  split
  · cases Offer.first? offers name with
    | none => exact Nat.zero_le 1
    | some offer => exact Nat.le_refl 1
  · exact Nat.zero_le 1

private theorem resolutionOrder_shape (self : String) (bases chain : List String) :
    (resolutionOrder self bases chain).Nodup ∧
      (resolutionOrder self bases chain).head? = some self ∧
      (∀ name, name ∈ resolutionOrder self bases chain ↔
        name = self ∨ name ∈ bases ∨ name ∈ chain) ∧
      ∃ front back, resolutionOrder self bases chain = front ++ back ∧
        (∀ name, name ∈ front ↔ name = self ∨ name ∈ bases) ∧
        (∀ name ∈ back, name ∈ chain ∧ name ∉ bases) := by
  rw [resolutionOrder_eq]
  refine ⟨FirstOccurrence.nodup_eraseDups _, ?_, ?_, ?_⟩
  · rw [List.eraseDups_cons, List.head?_cons]
  · intro name
    rw [List.mem_eraseDups, List.mem_cons, List.mem_append]
  · refine ⟨(self :: bases).eraseDups, (chain.removeAll (self :: bases)).eraseDups, ?_, ?_, ?_⟩
    · rw [← List.cons_append, List.eraseDups_append]
    · intro name
      rw [List.mem_eraseDups, List.mem_cons]
    · intro name member
      rw [List.mem_eraseDups] at member
      obtain ⟨listed, other⟩ := List.mem_filter.mp member
      have apart : name ∉ self :: bases := by simpa using other
      exact ⟨listed, fun known => apart (List.mem_cons_of_mem self known)⟩

/-- Whatever bases a class is completed from, the result has the shape. -/
theorem complete_wellShaped (self : ClassDoc) (bases : List (String × ClassDoc)) :
    ((ofBases self bases).complete self).WellShaped (ofBases self bases).chain
      (ofBases self bases).inherited := by
  have gathered := ofBases_gathered self bases
  have offered {group : String × List FunctionDoc} {method : FunctionDoc}
      (listed : group ∈ (ofBases self bases).inherited.groups) (member : method ∈ group.2) :=
    gathered.offer_of_mem (Inherited.mem_entries listed member)
  refine
    { chainDistinct := ?_
      chainProper := ?_
      groupsDistinct := gathered.distinct
      namesDistinct := ?_
      undeclared := ?_
      undundered := ?_
      marked := ?_
      ordered := ?_ }
  · rw [ofBases_chain]
    exact FirstOccurrence.nodup_eraseDups _
  · rw [ofBases_chain, List.mem_eraseDups, List.mem_filter]
    rintro ⟨_offered, other⟩
    exact bne_iff_ne.mp other rfl
  · rw [Inherited.methods_eq, List.map_map]
    exact gathered.names_nodup
  · intro group listed method member
    rw [ClassDoc.methodNames_of_declaration (complete_declaration _ self)]
    exact (offered listed member).2.1
  · intro group listed method member dunder
    exact dunder_of_propagates (offered listed member).1 dunder
  · intro group listed method member
    obtain ⟨_spreads, _fresh, offer, _found, same⟩ := offered listed member
    rw [Prod.ext_iff] at same
    obtain ⟨ancestor, copy⟩ := same
    change group.1 = offer.ancestor at ancestor
    change method = offer.method.inheritedCopy offer.ancestor at copy
    subst copy
    refine ⟨rfl, ?_, rfl⟩
    rw [ancestor]
    rfl
  · intro several
    have shape := resolutionOrder_shape self.name self.baseNames (ofBases self bases).chain
    have set : ((ofBases self bases).complete self).resolutionOrder =
        some (resolutionOrder self.name self.baseNames (ofBases self bases).chain) :=
      if_pos several
    exact ⟨_, set, shape⟩

end Heritage

namespace Registry

/-- Every class that is not resolved and has bases gets a chain and inherited methods of the
required shape, and keeps its declaration. -/
theorem resolve_wellShaped (registry : Registry) (position : Nat) (before : ClassDoc)
    (here : registry.classes[position]? = some before)
    (unresolved : before.isResolved = false) (bases : before.hasTrivialBases = false) :
    ∃ after chain inherited, registry.resolve.classes[position]? = some after ∧
      after.declaration = before.declaration ∧ after.chain = some chain ∧
      after.inherited = some inherited ∧ after.WellShaped chain inherited := by
  obtain ⟨order, run, idle⟩ := registry.resolve_run
  have awaiting : registry.awaits position = true :=
    awaits_iff.mpr ⟨before, here, unresolved, bases⟩
  obtain ⟨sources, there⟩ := run.completed here awaiting (idle position)
  exact ⟨_, _, _, there, Heritage.complete_declaration _ before, rfl, rfl,
    Heritage.complete_wellShaped before sources⟩

/-- Two classes of one name, one of them its own base, and a base whose record came with a chain
and inherited methods that no completion would produce. -/
def presetBase : Registry :=
  .ofList
    [{ ClassDoc.ofName "Child" 1 with
        baseNames := ["Preset", "Child"]
        methods := [.ofName "run" 2] },
      { ClassDoc.ofName "Preset" 3 with
        chain := some ["Child", "Far", "Far"]
        inherited := some ⟨[("Far", [.ofName "run" 4, .ofName "__init__" 5, .ofName "stop" 6]),
          ("Far", [.ofName "stop" 7])]⟩ },
      { ClassDoc.ofName "Child" 8 with baseNames := ["Child"] }]

theorem resolve_wellShaped_presetBase :
    ∃ before after chain inherited, presetBase.classes[0]? = some before ∧
      before.isResolved = false ∧ before.hasTrivialBases = false ∧
      presetBase.resolve.classes[0]? = some after ∧ after.declaration = before.declaration ∧
      after.chain = some chain ∧ after.inherited = some inherited ∧
      after.WellShaped chain inherited := by
  obtain ⟨after, chain, inherited, result⟩ := resolve_wellShaped presetBase 0 _ rfl rfl rfl
  exact ⟨_, after, chain, inherited, rfl, rfl, rfl, result⟩

end Registry

end DocHarvest
