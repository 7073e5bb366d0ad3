import DocHarvest.Proofs.Inheritance.Ancestry

/-!
Closest definitions.

Each base offers what it declares and what it inherits itself.  Since a class stores a method under
the first class of its chain that declares it, the offers of a base amount to the definitions along
the base and its own chain, and gathering them amounts to searching the chain of the class.
-/

namespace DocHarvest

theorem ClassDoc.method?_eq_none_iff {record : ClassDoc} {method : String} :
    record.method? method = none ↔ method ∉ record.methods.map FunctionDoc.name := by
  unfold method?
  rw [List.find?_eq_none, List.mem_map, not_exists]
  constructor
  · rintro differs function ⟨member, named⟩
    exact differs function member (beq_iff_eq.mpr named)
  · intro differs function member named
    exact differs function ⟨member, beq_iff_eq.mp named⟩

namespace Registry

/-- Whether the class of a name declares a method. -/
def declares (registry : Registry) (method name : String) : Bool :=
  (registry.get? name).any fun record => record.methods.any fun function => function.name == method

/-- The first method of a name that a class declares, as its descendants see it. -/
def definition (registry : Registry) (method name : String) : Option (String × FunctionDoc) :=
  (registry.get? name).bind fun record =>
    (record.method? method).map fun function => (name, function.inheritedCopy name)

theorem definition_congr {left right : Registry} (same : left.declarations = right.declarations)
    (method name : String) : left.definition method name = right.definition method name := by
  unfold definition
  cases found : left.get? name with
  | none => rw [get?_none_congr same found]
  | some record =>
      obtain ⟨other, there, equal⟩ := get?_congr same found
      have copies := ClassDoc.inheritedCopy_of_declaration equal method name
      have pairs := congrArg (Option.map (Prod.mk name)) copies
      rw [Option.map_map, Option.map_map] at pairs
      rw [there]
      exact pairs.symm

theorem definition_eq_some {registry : Registry} {method name : String}
    {entry : String × FunctionDoc} (found : registry.definition method name = some entry) :
    ∃ record function, registry.get? name = some record ∧
      record.method? method = some function ∧ entry = (name, function.inheritedCopy name) := by
  unfold definition at found
  rw [Option.bind_eq_some_iff] at found
  obtain ⟨record, got, found⟩ := found
  rw [Option.map_eq_some_iff] at found
  obtain ⟨function, named, same⟩ := found
  exact ⟨record, function, got, named, same.symm⟩

theorem definition_isSome (registry : Registry) (method name : String) :
    (registry.definition method name).isSome = registry.declares method name := by
  unfold definition declares
  cases registry.get? name with
  | none => rfl
  | some record =>
      rw [Option.bind_some, Option.isSome_map, Option.any_some, Bool.eq_iff_iff]
      unfold ClassDoc.method?
      rw [List.find?_isSome, List.any_eq_true]

theorem findSome?_definition (registry : Registry) (method : String) (names : List String) :
    (names.findSome? (registry.definition method)).map Prod.fst =
      names.find? (registry.declares method) := by
  induction names with
  | nil => rfl
  | cons name rest ih =>
      have declared := definition_isSome registry method name
      rw [List.findSome?_cons, List.find?_cons, ← declared]
      cases found : registry.definition method name with
      | none => exact ih
      | some entry =>
          obtain ⟨_record, _function, _got, _named, same⟩ := definition_eq_some found
          rw [same]
          rfl

/-! ### Invariant -/

/-- Every class with a chain stores, of each method that propagates and that it does not declare,
the first definition along its chain. -/
structure Provided (registry : Registry) : Prop where
  bare : ∀ {name record}, registry.get? name = some record → record.chain = none →
    record.inherited = none
  stored : ∀ {name record chain}, registry.get? name = some record → record.chain = some chain →
    ∃ inherited, record.inherited = some inherited ∧ ∀ method,
      inherited.entries.filter (Inherited.entryNamed method) =
        if propagates method && !(record.methods.map FunctionDoc.name).contains method then
          (chain.findSome? (registry.definition method)).toList
        else []

private theorem find?_handedOn {inherited : Inherited} {base method : String}
    {held : Option (String × FunctionDoc)}
    (stored : inherited.entries.filter (Inherited.entryNamed method) = held.toList)
    (proper : ∀ entry ∈ held, entry.1 ≠ base) :
    (inherited.entries.filter fun entry => entry.1 != base).find?
      (Inherited.entryNamed method) = held := by
  rw [← List.head?_filter, List.filter_filter]
  have order : (fun entry : String × FunctionDoc =>
      Inherited.entryNamed method entry && entry.1 != base) =
      fun entry => (entry.1 != base) && Inherited.entryNamed method entry := by
    funext entry
    exact Bool.and_comm _ _
  rw [order, ← List.filter_filter, stored]
  cases held with
  | none => rfl
  | some entry =>
      have kept : (entry.1 != base) = true := bne_iff_ne.mpr (proper entry rfl)
      rw [Option.toList_some, List.filter_singleton, kept]
      rfl

/-- The first offer of a base is the first definition along the base and its chain. -/
theorem Provided.first?_ofBase {registry : Registry} (provided : registry.Provided)
    (ancestral : registry.Ancestral) {base : String} {found : ClassDoc}
    (got : registry.get? base = some found) {method : String}
    (spreads : propagates method = true) :
    (Offer.first? (Offer.ofBase base found) method).map Offer.entry =
      (base :: found.chain.getD []).findSome? (registry.definition method) := by
  unfold Offer.ofBase
  rw [Offer.first?_append, List.findSome?_cons]
  have own : Offer.first? (found.methods.map (Offer.mk base base)) method =
      (found.method? method).map (Offer.mk base base) := by
    unfold Offer.first? ClassDoc.method?
    rw [List.find?_map]
    rfl
  have here : registry.definition method base =
      (found.method? method).map fun function => (base, function.inheritedCopy base) := by
    unfold definition
    rw [got, Option.bind_some]
  rw [own, here]
  cases declared : found.method? method with
  | some function => rfl
  | none =>
      have absent : (found.methods.map FunctionDoc.name).contains method = false :=
        Bool.eq_false_iff.mpr fun member =>
          ClassDoc.method?_eq_none_iff.mp declared (List.contains_iff_mem.mp member)
      have handed : Offer.first? (((found.inherited.getD .empty).entries.filter fun entry =>
          entry.1 != base).map fun entry => ⟨base, entry.1, entry.2⟩) method =
          (((found.inherited.getD .empty).entries.filter fun entry => entry.1 != base).find?
            (Inherited.entryNamed method)).map fun entry => ⟨base, entry.1, entry.2⟩ := by
        unfold Offer.first?
        rw [List.find?_map]
        rfl
      rw [Option.map_none, Option.none_or, handed]
      cases chained : found.chain with
      | none =>
          rw [provided.bare got chained]
          rfl
      | some chain =>
          obtain ⟨inherited, set, stored⟩ := provided.stored got chained
          have held := stored method
          rw [spreads, absent, Bool.not_false, Bool.and_true, if_pos rfl] at held
          have along {entry : String × FunctionDoc}
              (first : chain.findSome? (registry.definition method) = some entry) :
              registry.Ancestor base entry.1 ∧
                (entry.1, entry.2.inheritedCopy entry.1) = entry := by
            obtain ⟨ancestor, member, defined⟩ := List.exists_of_findSome?_eq_some first
            obtain ⟨_record, function, _got, _named, same⟩ := definition_eq_some defined
            subst same
            exact ⟨(ancestor_iff_mem got chained).mpr member, rfl⟩
          have proper : ∀ entry ∈ chain.findSome? (registry.definition method),
              entry.1 ≠ base := by
            intro entry first same
            have line := (along first).1
            rw [same] at line
            exact ancestral.irrefl base line
          rw [set, Option.getD_some, find?_handedOn held proper, Option.getD_some]
          cases first : chain.findSome? (registry.definition method) with
          | none => rfl
          | some entry => exact congrArg some (along first).2

theorem Provided.first?_ofBases {registry : Registry} (provided : registry.Provided)
    (ancestral : registry.Ancestral) (bases : List (String × ClassDoc))
    (got : ∀ source ∈ bases, registry.get? source.1 = some source.2) {method : String}
    (spreads : propagates method = true) :
    (Offer.first? (bases.flatMap fun source => Offer.ofBase source.1 source.2) method).map
        Offer.entry =
      (Heritage.lineOf bases).findSome? (registry.definition method) := by
  induction bases with
  | nil => rfl
  | cons source rest ih =>
      have remaining := ih fun other member => got other (List.mem_cons_of_mem source member)
      have first := provided.first?_ofBase ancestral (got source List.mem_cons_self) spreads
      have line : Heritage.lineOf (source :: rest) =
          (source.1 :: source.2.chain.getD []) ++ Heritage.lineOf rest := List.flatMap_cons
      rw [List.flatMap_cons, Offer.first?_append, line, List.findSome?_append, ← first,
        ← remaining]
      cases Offer.first? (Offer.ofBase source.1 source.2) method with
      | none => rfl
      | some offer => rfl

theorem Ancestral.chain_completion {registry : Registry} {position : Nat} {record : ClassDoc}
    (ancestral : registry.Ancestral) (distinct : registry.DistinctNames)
    (next : registry.Step position record) :
    (registry.completion record).chain =
      some (Heritage.lineOf (registry.readyBases record.baseNames)).eraseDups := by
  have unready := not_ready_self distinct next
  have whole : (Heritage.lineOf (registry.readyBases record.baseNames)).filter
      (· != record.name) = Heritage.lineOf (registry.readyBases record.baseNames) := by
    rw [List.filter_eq_self]
    intro name member
    obtain ⟨⟨base, found⟩, taken, listed⟩ := List.mem_flatMap.mp member
    obtain ⟨_declared, ready, got⟩ := mem_readyBases.mp taken
    rw [bne_iff_ne]
    intro same
    subst same
    rcases List.mem_cons.mp listed with itself | above
    · subst itself
      exact unready ready
    · exact unready (ancestral.ready ⟨found, got, above⟩)
  change some (Heritage.ofBases record (registry.readyBases record.baseNames)).chain = _
  rw [Heritage.ofBases_chain, whole]

theorem Provided.advance {registry : Registry} {position : Nat} {record : ClassDoc}
    (provided : registry.Provided) (ancestral : registry.Ancestral)
    (distinct : registry.DistinctNames) (next : registry.Step position record) :
    (registry.advance position record).Provided := by
  have declared := declarations_advance registry position record
  have definitions (method : String) : (registry.advance position record).definition method =
      registry.definition method := funext (definition_congr declared method)
  constructor
  · intro name found got chained
    by_cases self : name = record.name
    · subst self
      rw [get?_advance_self distinct next, Option.some.injEq] at got
      subst got
      cases chained
    · rw [get?_advance_other next self] at got
      exact provided.bare got chained
  · intro name found chain got chained
    by_cases self : name = record.name
    · subst self
      rw [get?_advance_self distinct next, Option.some.injEq] at got
      subst got
      refine ⟨_, rfl, ?_⟩
      intro method
      have names : (registry.completion record).methods.map FunctionDoc.name =
          record.methods.map FunctionDoc.name :=
        ClassDoc.methodNames_of_declaration (Heritage.complete_declaration _ record)
      have gathered := Heritage.ofBases_gathered record (registry.readyBases record.baseNames)
      rw [names, gathered.stored method, definitions]
      cases spreads : propagates method with
      | false => rfl
      | true =>
          have first := provided.first?_ofBases ancestral
            (registry.readyBases record.baseNames)
            (fun source member => (mem_readyBases.mp member).2.2) spreads
          rw [ancestral.chain_completion distinct next, Option.some.injEq] at chained
          subst chained
          rw [first, FirstOccurrence.findSome?_eraseDups]
    · rw [get?_advance_other next self] at got
      obtain ⟨inherited, set, stored⟩ := provided.stored got chained
      refine ⟨inherited, set, ?_⟩
      intro method
      rw [stored method, definitions]

theorem Unresolved.provided {registry : Registry} (fresh : registry.Unresolved) :
    registry.Provided := by
  constructor
  · intro name record got _chained
    exact (fresh.get? got).2.1
  · intro name record chain got chained
    rw [(fresh.get? got).1] at chained
    cases chained

theorem Run.provided {first last : Registry} {order : List Nat} (run : Run first order last)
    (distinct : first.DistinctNames) (fresh : first.Unresolved) : last.Provided := by
  apply run.induct Provided fresh.provided
  intro _before registry position record started next provided
  exact provided.advance (started.ancestral distinct fresh)
    (distinct.congr started.declarations.symm) next

/-- Resolution changes no declaration and gives a chain to exactly the classes with bases.  Of each
method that propagates and is not declared, such a class inherits the definition of the first class
in its chain that has one, and nothing else. -/
theorem resolve_closest_definition (registry : Registry) (distinct : registry.DistinctNames)
    (fresh : registry.Unresolved) :
    registry.resolve.declarations = registry.declarations ∧
    ∀ record ∈ registry.resolve.classes,
      record.chain.isSome = !record.hasTrivialBases ∧
      ∀ chain, record.chain = some chain →
        ∃ inherited, record.inherited = some inherited ∧ ∀ method,
          (∀ ancestor, inherited.providerOf? method = some ancestor ↔
            propagates method = true ∧ method ∉ record.methods.map FunctionDoc.name ∧
              chain.find? (registry.resolve.declares method) = some ancestor) ∧
          (∀ ancestor, inherited.providerOf? method = some ancestor →
            ∃ definer function, registry.resolve.get? ancestor = some definer ∧
              definer.method? method = some function ∧
              inherited.entries.filter (fun entry => entry.2.name == method) =
                [(ancestor, { function with
                  isInherited := true
                  inheritedFrom := some ancestor
                  overrides := none })]) := by
  obtain ⟨order, run, _idle⟩ := registry.resolve_run
  refine ⟨run.declarations, ?_⟩
  intro record member
  refine ⟨chain_isSome_resolve fresh member, ?_⟩
  intro chain chained
  have provided := run.provided distinct fresh
  obtain ⟨position, here⟩ := List.getElem?_of_mem member
  have got := get?_of_distinct (distinct.congr run.declarations.symm) here
  obtain ⟨inherited, set, stored⟩ := provided.stored got chained
  refine ⟨inherited, set, ?_⟩
  intro method
  have held := stored method
  have admitted : (propagates method &&
      !(record.methods.map FunctionDoc.name).contains method) = true ↔
      propagates method = true ∧ method ∉ record.methods.map FunctionDoc.name := by
    rw [Bool.and_eq_true, Bool.not_eq_true', ← Bool.not_eq_true, List.contains_iff_mem]
  have provider : inherited.providerOf? method =
      if propagates method && !(record.methods.map FunctionDoc.name).contains method then
        chain.find? (registry.resolve.declares method)
      else none := by
    rw [Inherited.providerOf?_eq, ← List.head?_filter, held, ← findSome?_definition]
    split
    · rw [Option.head?_toList]
    · rfl
  constructor
  · intro ancestor
    rw [provider, ← and_assoc, ← admitted, Option.ite_none_right_eq_some]
  · intro ancestor found
    rw [provider, Option.ite_none_right_eq_some] at found
    obtain ⟨allowed, first⟩ := found
    rw [← findSome?_definition, Option.map_eq_some_iff] at first
    obtain ⟨entry, defined, named⟩ := first
    obtain ⟨holder, _listed, definition⟩ := List.exists_of_findSome?_eq_some defined
    obtain ⟨definer, function, there, declared, same⟩ := definition_eq_some definition
    subst same
    subst named
    refine ⟨definer, function, there, declared, ?_⟩
    rw [if_pos allowed, defined] at held
    exact held

theorem resolve_closest_definition_loopedDiamond :
    loopedDiamond.DistinctNames ∧ loopedDiamond.Unresolved ∧
      ∃ record ∈ loopedDiamond.resolve.classes, record.name = "Leaf" ∧
        record.chain = some ["Right", "Root", "Left"] ∧
        ∃ inherited, record.inherited = some inherited ∧
          inherited.providerOf? "ping" = some "Root" ∧
          inherited.entries.filter (fun entry => entry.2.name == "ping") =
            [("Root", { FunctionDoc.ofName "ping" 6 with
              isInherited := true
              inheritedFrom := some "Root" })] := by
  have distinct : loopedDiamond.DistinctNames := by
    unfold DistinctNames
    decide
  have fresh : loopedDiamond.Unresolved := by
    unfold Unresolved
    decide
  refine ⟨distinct, fresh, loopedDiamond.resolve.classes.get ⟨3, by decide⟩, List.get_mem _ _,
    by decide, by decide, ?_⟩
  obtain ⟨_declared, resolved⟩ := resolve_closest_definition loopedDiamond distinct fresh
  obtain ⟨_chained, searched⟩ := resolved
    (loopedDiamond.resolve.classes.get ⟨3, by decide⟩) (List.get_mem _ _)
  obtain ⟨inherited, set, closest⟩ := searched ["Right", "Root", "Left"] (by decide)
  have provider : inherited.providerOf? "ping" = some "Root" :=
    ((closest "ping").1 "Root").mpr ⟨by decide, by decide, by decide⟩
  obtain ⟨definer, function, found, declared, stored⟩ := (closest "ping").2 "Root" provider
  have root : loopedDiamond.resolve.get? "Root" = loopedDiamond.classes[2]? := by decide
  rw [root] at found
  cases found
  cases declared
  exact ⟨inherited, set, provider, stored⟩

end Registry

end DocHarvest
