import DocHarvest.Proofs.Inheritance.ClosestDefinition

/-!
Override tags.

A declared method is tagged by the first base that offers a method of its name.  A base offers one
exactly if it, or a class in its chain, declares one: what a base leaves out of its inherited
methods it declares itself.
-/

namespace DocHarvest.Registry

/-- Whether the class of a name, or a class in its chain, declares a method. -/
def lineDeclares (registry : Registry) (method name : String) : Bool :=
  (registry.get? name).any fun record =>
    (name :: record.chain.getD []).any (registry.declares method)

theorem declares_congr {left right : Registry} (same : left.declarations = right.declarations)
    (method name : String) : left.declares method name = right.declares method name := by
  rw [← definition_isSome, ← definition_isSome, definition_congr same]

theorem lineDeclares_iff {registry : Registry} {method name : String}
    (known : (registry.get? name).isSome = true) :
    registry.lineDeclares method name = true ↔ registry.declares method name = true ∨
      ∃ ancestor, registry.Ancestor name ancestor ∧ registry.declares method ancestor = true := by
  obtain ⟨record, got⟩ := Option.isSome_iff_exists.mp known
  unfold lineDeclares
  rw [got, Option.any_some, List.any_cons, Bool.or_eq_true, List.any_eq_true]
  apply or_congr_right
  constructor
  · rintro ⟨ancestor, member, declared⟩
    exact ⟨ancestor, ⟨record, got, member⟩, declared⟩
  · rintro ⟨ancestor, ⟨other, again, member⟩, declared⟩
    rw [got, Option.some.injEq] at again
    subst again
    exact ⟨ancestor, member, declared⟩

/-- The override tag that a method should have: of the first base in the chain whose line declares
the method. -/
def tag? (registry : Registry) (bases chain : List String) (method : String) : Option String :=
  if propagates method then
    (bases.find? fun base => chain.contains base && registry.lineDeclares method base).map
      fun base => base ++ "." ++ method
  else none

def Tagged (registry : Registry) : Prop :=
  ∀ name record chain, registry.get? name = some record → record.chain = some chain →
    ∀ method ∈ record.methods,
      method.overrides = registry.tag? record.baseNames chain method.name

private theorem base_of_ofBase {base : String} {record : ClassDoc} {offer : Offer}
    (member : offer ∈ Offer.ofBase base record) : offer.base = base := by
  unfold Offer.ofBase at member
  rcases List.mem_append.mp member with own | further
  · obtain ⟨_method, _declared, same⟩ := List.mem_map.mp own
    rw [← same]
  · obtain ⟨_entry, _held, same⟩ := List.mem_map.mp further
    rw [← same]

/-- The first offer of a name comes from the first base whose line declares it. -/
private theorem tag_of_bases {registry : Registry} (provided : registry.Provided)
    (ancestral : registry.Ancestral) (bases : List (String × ClassDoc))
    (got : ∀ source ∈ bases, registry.get? source.1 = some source.2) {method : String}
    (spreads : propagates method = true) :
    (Offer.first? (bases.flatMap fun source => Offer.ofBase source.1 source.2) method).map
        Offer.tag =
      (bases.find? fun source => registry.lineDeclares method source.1).map
        fun source => source.1 ++ "." ++ method := by
  induction bases with
  | nil => rfl
  | cons source rest ih =>
      have remaining := ih fun other member => got other (List.mem_cons_of_mem source member)
      have there := got source List.mem_cons_self
      have first := provided.first?_ofBase ancestral there spreads
      have line : (Offer.first? (Offer.ofBase source.1 source.2) method).isSome =
          registry.lineDeclares method source.1 := by
        have entries := congrArg Option.isSome
          (congrArg (Option.map Prod.fst) first)
        rw [findSome?_definition, Option.isSome_map, Option.isSome_map] at entries
        unfold lineDeclares
        rw [entries, there, Option.any_some, Bool.eq_iff_iff, List.find?_isSome, List.any_eq_true]
      rw [List.flatMap_cons, Offer.first?_append, List.find?_cons, ← line]
      cases found : Offer.first? (Offer.ofBase source.1 source.2) method with
      | none => exact remaining
      | some offer =>
          have origin := base_of_ofBase (List.mem_of_find?_eq_some found)
          have named := Offer.name_of_first? found
          rw [Option.some_or, Option.map_some]
          unfold Offer.tag
          rw [origin, named]
          rfl

private theorem find?_readyBases {registry : Registry} (names chain : List String)
    (exact : ∀ name ∈ names, name ∈ chain ↔ registry.Ready name) (method : String) :
    ((registry.readyBases names).find? fun source =>
        registry.lineDeclares method source.1).map Prod.fst =
      names.find? fun name => chain.contains name && registry.lineDeclares method name := by
  induction names with
  | nil => rfl
  | cons name rest ih =>
      have remaining := ih fun other member => exact other (List.mem_cons_of_mem name member)
      have listed := exact name List.mem_cons_self
      rw [readyBases_cons, List.find?_append, List.find?_cons, ← remaining]
      by_cases ready : registry.Ready name
      · have member : chain.contains name = true := List.contains_iff_mem.mpr (listed.mpr ready)
        obtain ⟨source, place, idle⟩ := ready
        obtain ⟨found, there, _named⟩ := class_of_position? place
        rw [readyBases_ready place idle there, member, Bool.true_and, List.find?_singleton]
        cases registry.lineDeclares method name with
        | true => rfl
        | false => rfl
      · have absent : chain.contains name = false :=
          Bool.eq_false_iff.mpr fun member =>
            ready (listed.mp (List.contains_iff_mem.mp member))
        have nothing : registry.readyBases [name] = [] := by
          cases place : registry.position? name with
          | none => exact readyBases_unknown place
          | some source =>
              apply readyBases_waiting place
              by_contra idle
              rw [Bool.not_eq_true] at idle
              exact ready ⟨source, place, idle⟩
        rw [nothing, absent, Bool.false_and]
        rfl

private theorem lineDeclares_advance {registry : Registry} {position : Nat} {record : ClassDoc}
    (next : registry.Step position record) {name : String} (other : name ≠ record.name)
    (method : String) :
    (registry.advance position record).lineDeclares method name =
      registry.lineDeclares method name := by
  have declared : (registry.advance position record).declares method =
      registry.declares method := funext (declares_congr (declarations_advance _ _ _) method)
  unfold lineDeclares
  rw [get?_advance_other next other, declared]

/-- A step changes no tag that a class should have if its chain has no place for the completed
class. -/
private theorem tag?_advance {registry : Registry} {position : Nat} {record : ClassDoc}
    (next : registry.Step position record) (bases chain : List String)
    (apart : record.name ∉ chain) (method : String) :
    (registry.advance position record).tag? bases chain method =
      registry.tag? bases chain method := by
  have same : (fun base => chain.contains base &&
      (registry.advance position record).lineDeclares method base) =
      fun base => chain.contains base && registry.lineDeclares method base := by
    funext base
    by_cases self : base = record.name
    · have absent : chain.contains base = false := by
        rw [self]
        exact Bool.eq_false_iff.mpr fun member => apart (List.contains_iff_mem.mp member)
      rw [absent, Bool.false_and, Bool.false_and]
    · rw [lineDeclares_advance next self]
  unfold tag?
  rw [same]

theorem Tagged.advance {registry : Registry} {position : Nat} {record : ClassDoc}
    (tagged : registry.Tagged) (provided : registry.Provided) (ancestral : registry.Ancestral)
    (distinct : registry.DistinctNames) (next : registry.Step position record) :
    (registry.advance position record).Tagged := by
  intro name found chain got chained method member
  have line (ancestor : String) (listed : ancestor ∈ chain) :
      (registry.advance position record).Ancestor name ancestor :=
    (ancestor_iff_mem got chained).mpr listed
  have apart : record.name ∉ chain := fun listed =>
    ancestral.proper_advance distinct next (line record.name listed) rfl
  rw [tag?_advance next found.baseNames chain apart method.name]
  by_cases self : name = record.name
  · subst self
    rw [get?_advance_self distinct next, Option.some.injEq] at got
    subst got
    obtain ⟨original, declared, same⟩ := List.mem_map.mp member
    subst same
    change (Heritage.ofBases record (registry.readyBases record.baseNames)).overrides.lookup
      original.name = registry.tag? record.baseNames chain original.name
    have known : (record.methods.map FunctionDoc.name).contains original.name = true :=
      List.contains_iff_mem.mpr (List.mem_map_of_mem declared)
    have gathered := Heritage.ofBases_gathered record (registry.readyBases record.baseNames)
    rw [gathered.tagged, known, Bool.and_true]
    unfold tag?
    cases spreads : propagates original.name with
    | false => rfl
    | true =>
        have exact (base : String) (listed : base ∈ record.baseNames) :
            base ∈ chain ↔ registry.Ready base := by
          constructor
          · intro inside
            exact ancestral.ready_advance distinct next (line base inside)
          · intro ready
            have proper : base ≠ record.name := by
              intro same
              subst same
              exact not_ready_self distinct next ready
            have direct := (ancestor_advance_self distinct next).mpr
              ⟨proper, base, listed, ready, Or.inl rfl⟩
            exact (ancestor_iff_mem (get?_advance_self distinct next) chained).mp direct
        rw [if_pos rfl, if_pos rfl, ← find?_readyBases record.baseNames chain exact,
          Option.map_map, tag_of_bases provided ancestral (registry.readyBases record.baseNames)
            (fun source taken => (mem_readyBases.mp taken).2.2) spreads]
        rfl
  · rw [get?_advance_other next self] at got
    exact tagged name found chain got chained method member

theorem Run.tagged {first last : Registry} {order : List Nat} (run : Run first order last)
    (distinct : first.DistinctNames) (fresh : first.Unresolved) : last.Tagged := by
  apply run.induct Tagged
  · intro name record chain got chained
    rw [(fresh.get? got).1] at chained
    cases chained
  · intro _before registry position record started next tagged
    exact tagged.advance (started.provided distinct fresh) (started.ancestral distinct fresh)
      (distinct.congr started.declarations.symm) next

/-- An ancestor declares a method if and only if the line of some base in the chain does. -/
theorem Ancestral.baseLine_iff {registry : Registry} (ancestral : registry.Ancestral)
    {name : String} {record : ClassDoc} (got : registry.get? name = some record)
    (method : String) :
    (∃ base ∈ record.baseNames, registry.Ancestor name base ∧
        registry.lineDeclares method base = true) ↔
      ∃ ancestor, registry.Ancestor name ancestor ∧
        registry.declares method ancestor = true := by
  constructor
  · rintro ⟨base, _direct, step, declared⟩
    obtain ⟨_class, known⟩ := (ancestral.ready step).get?
    rcases (lineDeclares_iff (Option.isSome_of_eq_some known)).mp declared with own | above
    · exact ⟨base, step, own⟩
    · obtain ⟨ancestor, line, declares⟩ := above
      exact ⟨ancestor, ancestral.trans step line, declares⟩
  · rintro ⟨ancestor, line, declares⟩
    obtain ⟨found, base, again, direct, step, either⟩ := ancestral.through line
    rw [got, Option.some.injEq] at again
    subst again
    obtain ⟨_class, known⟩ := (ancestral.ready step).get?
    refine ⟨base, direct, step, ?_⟩
    rw [lineDeclares_iff (Option.isSome_of_eq_some known)]
    rcases either with same | above
    · subst same
      exact Or.inl declares
    · exact Or.inr ⟨ancestor, above, declares⟩

/-- Resolution changes no declaration and gives a chain to exactly the classes with bases.  In such
a class, a declared method is tagged by the first base in the chain whose line declares it, and it
carries no tag exactly if it does not propagate or no ancestor declares it. -/
theorem resolve_override_tags (registry : Registry) (distinct : registry.DistinctNames)
    (fresh : registry.Unresolved) :
    registry.resolve.declarations = registry.declarations ∧
    ∀ record ∈ registry.resolve.classes,
      record.chain.isSome = !record.hasTrivialBases ∧
      ∀ chain, record.chain = some chain → ∀ method ∈ record.methods,
        (∀ base, method.overrides = some (base ++ "." ++ method.name) ↔
          propagates method.name = true ∧
            (record.baseNames.find? fun name => chain.contains name &&
              registry.resolve.lineDeclares method.name name) = some base) ∧
        (method.overrides = none ↔
          propagates method.name = false ∨
            ∀ ancestor ∈ chain, registry.resolve.declares method.name ancestor = false) := by
  obtain ⟨order, run, _idle⟩ := registry.resolve_run
  refine ⟨run.declarations, ?_⟩
  intro record member
  refine ⟨chain_isSome_resolve fresh member, ?_⟩
  intro chain chained method declared
  have tagged := run.tagged distinct fresh
  obtain ⟨position, here⟩ := List.getElem?_of_mem member
  have got := get?_of_distinct (distinct.congr run.declarations.symm) here
  have lines := (run.ancestral distinct fresh).baseLine_iff got method.name
  simp only [ancestor_iff_mem got chained] at lines
  rw [tagged record.name record chain got chained method declared]
  unfold tag?
  cases spreads : propagates method.name with
  | false => simp
  | true =>
      rw [if_pos rfl]
      constructor
      · intro base
        rw [Option.map_eq_some_iff, and_iff_right rfl]
        constructor
        · rintro ⟨first, found, same⟩
          rw [String.append_left_inj, String.append_left_inj] at same
          rw [← same]
          exact found
        · intro found
          exact ⟨base, found, rfl⟩
      · rw [Option.map_eq_none_iff, List.find?_eq_none, or_iff_right (by decide)]
        constructor
        · intro none ancestor inside
          by_contra declares
          rw [Bool.not_eq_false] at declares
          obtain ⟨base, direct, listed, line⟩ := lines.mpr ⟨ancestor, inside, declares⟩
          apply none base direct
          rw [Bool.and_eq_true, List.contains_iff_mem]
          exact ⟨listed, line⟩
        · intro undeclared base direct both
          rw [Bool.and_eq_true, List.contains_iff_mem] at both
          obtain ⟨ancestor, inside, declares⟩ := lines.mp ⟨base, direct, both⟩
          rw [undeclared ancestor inside] at declares
          cases declares

theorem resolve_override_tags_loopedDiamond :
    loopedDiamond.DistinctNames ∧ loopedDiamond.Unresolved ∧
      ∃ record ∈ loopedDiamond.resolve.classes, record.name = "Left" ∧
        record.chain = some ["Right", "Root"] ∧
        ∃ method ∈ record.methods, method.name = "ping" ∧
          method.overrides = some "Right.ping" := by
  have distinct : loopedDiamond.DistinctNames := by
    unfold DistinctNames
    decide
  have fresh : loopedDiamond.Unresolved := by
    unfold Unresolved
    decide
  refine ⟨distinct, fresh, loopedDiamond.resolve.classes.get ⟨0, by decide⟩, List.get_mem _ _,
    by decide, by decide, { FunctionDoc.ofName "ping" 2 with overrides := some "Right.ping" },
    by decide, rfl, ?_⟩
  obtain ⟨_declared, resolved⟩ := resolve_override_tags loopedDiamond distinct fresh
  obtain ⟨_chained, tagged⟩ := resolved
    (loopedDiamond.resolve.classes.get ⟨0, by decide⟩) (List.get_mem _ _)
  obtain ⟨exactly, _none⟩ := tagged ["Right", "Root"] (by decide)
    { FunctionDoc.ofName "ping" 2 with overrides := some "Right.ping" } (by decide)
  exact (exactly "Right").mpr ⟨by decide, by decide⟩

end DocHarvest.Registry
