import DocHarvest.Proofs.Inheritance.ClosestDefinition
import DocHarvest.Proofs.Inheritance.Preorder

/-!
The resolution order against the chain.

A resolution order has all bases of a class before the other ancestors, where the chain has the
ancestors of a base before the next base.  Methods are inherited along the chain, so the first class
in the resolution order that declares a method is not always the one it is inherited from: an
ancestor of one base may stand behind a later base there.
-/

namespace DocHarvest

theorem FirstOccurrence.find?_eraseDups {α : Type} [BEq α] [LawfulBEq α] (names : List α)
    (accepts : α → Bool) : names.eraseDups.find? accepts = names.find? accepts := by
  rw [← List.findSome?_guard, ← List.findSome?_guard, findSome?_eraseDups]

theorem FirstOccurrence.find?_eraseDups_others {α : Type} [BEq α] [LawfulBEq α] (names : List α)
    {accepts : α → Bool} {name : α} (refused : accepts name = false) :
    ((names.filter (· != name)).eraseDups).find? accepts = names.find? accepts := by
  rw [find?_eraseDups, List.find?_filter]
  congr 1
  funext other
  by_cases itself : other = name
  · simp [itself, refused]
  · simp [itself]

/-- A search in the resolution order goes through the bases, then through the chain. -/
theorem Heritage.find?_resolutionOrder {self : String} {bases chain : List String}
    (notBase : self ∉ bases) (notAncestor : self ∉ chain) :
    ∃ later, resolutionOrder self bases chain = self :: later ∧
      ∀ accepts, later.find? accepts = (bases.find? accepts).or (chain.find? accepts) := by
  have others : (bases ++ chain).filter (fun name => !name == self) = bases ++ chain := by
    rw [List.filter_eq_self]
    intro name member
    rw [Bool.not_eq_true', beq_eq_false_iff_ne]
    rintro rfl
    exact (List.mem_append.mp member).elim notBase notAncestor
  refine ⟨(bases ++ chain).eraseDups, ?_, ?_⟩
  · rw [resolutionOrder_eq, List.eraseDups_cons, others]
  · intro accepts
    rw [FirstOccurrence.find?_eraseDups, List.find?_append]

namespace Registry

theorem resolutionOrder_resolve {registry : Registry} (fresh : registry.Unresolved)
    {record : ClassDoc} (member : record ∈ registry.resolve.classes) {order : List String}
    (ordered : record.resolutionOrder = some order) :
    ∃ chain, record.chain = some chain ∧
      order = Heritage.resolutionOrder record.name record.baseNames chain := by
  obtain ⟨_moves, run, idle⟩ := registry.resolve_run
  obtain ⟨position, here⟩ := List.getElem?_of_mem member
  obtain ⟨before, there, _same⟩ := class_congr run.declarations here
  have blank := (fresh before (List.mem_of_getElem? there)).2.2
  cases waits : registry.awaits position with
  | false =>
      have kept := run.settled waits
      rw [here, there, Option.some.injEq] at kept
      rw [kept, blank] at ordered
      cases ordered
  | true =>
      obtain ⟨sources, completed⟩ := run.completed there waits (idle position)
      rw [here, Option.some.injEq] at completed
      subst completed
      refine ⟨_, rfl, ?_⟩
      simp only [Heritage.complete] at ordered
      split at ordered
      · exact (Option.some.inj ordered).symm
      · rw [blank] at ordered
        cases ordered

/-- The provider of a method is the first class of the chain that declares it, and the class itself
does not. -/
theorem Provided.find?_of_providerOf? {registry : Registry} (provided : registry.Provided)
    {name : String} {record : ClassDoc} {chain : List String} {inherited : Inherited}
    (got : registry.get? name = some record) (chained : record.chain = some chain)
    (set : record.inherited = some inherited) {method provider : String}
    (origin : inherited.providerOf? method = some provider) :
    registry.declares method name = false ∧
      chain.find? (registry.declares method) = some provider := by
  obtain ⟨other, again, stored⟩ := provided.stored got chained
  rw [set, Option.some.injEq] at again
  subst again
  rw [Inherited.providerOf?_eq, ← List.head?_filter, stored method] at origin
  split at origin
  · next allowed =>
      rw [Bool.and_eq_true, Bool.not_eq_true'] at allowed
      constructor
      · rw [← definition_isSome]
        unfold definition
        rw [got, Option.bind_some, Option.isSome_map, Option.isSome_eq_false_iff,
          Option.isNone_iff_eq_none, ClassDoc.method?_eq_none_iff]
        simpa using allowed.2
      · rw [← findSome?_definition, ← origin, Option.head?_toList]
  · cases origin

theorem declares_of_unknown {registry : Registry} {name : String}
    (missing : registry.get? name = none) (method : String) :
    registry.declares method name = false := by
  unfold declares
  rw [missing]
  rfl

/-! ### The base that a definition comes through -/

section Walks

variable {registry resolved : Registry}

/-- A walk below a class finds what the chain of the class has first. -/
private theorem find?_below (same : resolved.declarations = registry.declarations)
    (walked : Walked registry resolved) {name : String} {record found : ClassDoc}
    (registered : registry.get? name = some record) (got : resolved.get? name = some found)
    (complete : found.chain.isSome = !found.hasTrivialBases) {below : List String}
    (inside : registry.Walk (if record.hasTrivialBases then [] else record.baseNames) below)
    {accepts : String → Bool} (refused : accepts name = false) :
    (found.chain.getD []).find? accepts = below.find? accepts := by
  obtain ⟨other, there, equal⟩ := get?_congr same got
  rw [registered, Option.some.injEq] at there
  subst there
  rw [ClassDoc.hasTrivialBases_of_declaration equal,
    ClassDoc.baseNames_of_declaration equal] at inside
  cases chained : found.chain with
  | none =>
      rw [chained, Option.isSome_none, eq_comm, Bool.not_eq_false'] at complete
      rw [complete, if_pos rfl] at inside
      cases inside
      rfl
  | some chain =>
      obtain ⟨bases, met, walk, first⟩ := walked name found chain got chained
      rw [bases, if_neg Bool.false_ne_true] at inside
      rw [walk.unique inside, Option.getD_some, first]
      exact FirstOccurrence.find?_eraseDups_others met refused

/-- What a walk over bases finds first comes through a base: it is the base, or stands in the chain
of the base, and no base before that one is found. -/
theorem Walk.exists_base (same : resolved.declarations = registry.declarations)
    (walked : Walked registry resolved)
    (complete : ∀ name record, resolved.get? name = some record →
      record.chain.isSome = !record.hasTrivialBases)
    {bases met : List String} (walk : registry.Walk bases met) {method provider : String}
    (first : met.find? (resolved.declares method) = some provider) :
    ∃ front closer back found, bases = front ++ closer :: back ∧
      (∀ base ∈ front, resolved.declares method base = false) ∧
      resolved.get? closer = some found ∧
      (closer :: found.chain.getD []).find? (resolved.declares method) = some provider := by
  induction walk with
  | done => cases first
  | @unknown name names _met missing _rest ih =>
      obtain ⟨front, closer, back, found, split, before, got, line⟩ := ih first
      have unlisted := declares_of_unknown (get?_none_congr same.symm missing) method
      exact ⟨name :: front, closer, back, found, by rw [split, List.cons_append],
        List.forall_mem_cons.mpr ⟨unlisted, before⟩, got, line⟩
  | @visit name names below met record registered inside _rest _ihInside ih =>
      obtain ⟨found, got, _equal⟩ := get?_congr same.symm registered
      cases declared : resolved.declares method name with
      | true =>
          rw [List.find?_cons, declared] at first
          refine ⟨[], name, names, found, rfl, fun base member => absurd member List.not_mem_nil,
            got, ?_⟩
          rw [List.find?_cons, declared]
          exact first
      | false =>
          have line := find?_below same walked registered got (complete name found got) inside
            declared
          rw [List.find?_cons, declared, List.find?_append, ← line, Option.or_eq_some_iff] at first
          rcases first with here | ⟨_nothing, later⟩
          · refine ⟨[], name, names, found, rfl, fun base member => absurd member List.not_mem_nil,
              got, ?_⟩
            rw [List.find?_cons, declared]
            exact here
          · obtain ⟨front, closer, back, other, split, before, gotOther, lineOther⟩ := ih later
            exact ⟨name :: front, closer, back, other, by rw [split, List.cons_append],
              List.forall_mem_cons.mpr ⟨declared, before⟩, gotOther, lineOther⟩

end Walks

theorem chain_isSome_of_get? {registry : Registry} (fresh : registry.Unresolved) {name : String}
    {record : ClassDoc} (got : registry.resolve.get? name = some record) :
    record.chain.isSome = !record.hasTrivialBases := by
  obtain ⟨_named, _position, _place, here⟩ := get?_eq_some got
  exact chain_isSome_resolve fresh (List.mem_of_getElem? here)

/-- A class with a resolution order inherits a method from the first class of its chain that
declares it.  This is also the first class behind it in the resolution order that declares the
method, unless an earlier place there is taken by a base that does.  In that case the method comes
out of the chain of a base further left, which does not declare it. -/
theorem resolve_search_order (registry : Registry) (distinct : registry.DistinctNames)
    (fresh : registry.Unresolved) (acyclic : registry.Acyclic) :
    ∀ record ∈ registry.resolve.classes, ∀ order, record.resolutionOrder = some order →
      ∃ chain inherited later, record.chain = some chain ∧ record.inherited = some inherited ∧
        order = record.name :: later ∧
        ∀ method provider, inherited.providerOf? method = some provider →
          chain.find? (registry.resolve.declares method) = some provider ∧
          (later.find? (registry.resolve.declares method) = some provider ↔
            ∀ base, record.baseNames.find? (registry.resolve.declares method) = some base →
              base = provider) ∧
          ∀ base, record.baseNames.find? (registry.resolve.declares method) = some base →
            base ≠ provider →
              later.find? (registry.resolve.declares method) = some base ∧
              ∃ front closer back found line, record.baseNames = front ++ closer :: back ∧
                base ∈ back ∧ registry.resolve.get? closer = some found ∧
                found.chain = some line ∧ registry.resolve.declares method closer = false ∧
                line.find? (registry.resolve.declares method) = some provider := by
  intro record member order ordered
  obtain ⟨chain, chained, spelled⟩ := resolutionOrder_resolve fresh member ordered
  obtain ⟨_moves, run, _idle⟩ := registry.resolve_run
  have names := distinct.congr run.declarations.symm
  obtain ⟨position, here⟩ := List.getElem?_of_mem member
  have got := get?_of_distinct names here
  obtain ⟨inherited, set, _stored⟩ := (run.provided distinct fresh).stored got chained
  have notAncestor : record.name ∉ chain := fun listed =>
    (run.ancestral distinct fresh).irrefl _ ((ancestor_iff_mem got chained).mpr listed)
  have notBase : record.name ∉ record.baseNames := fun listed =>
    acyclic record.name (basePath_congr run.declarations
      (.single ⟨record, got, listed, Option.isSome_of_eq_some got⟩))
  obtain ⟨later, ahead, search⟩ := Heritage.find?_resolutionOrder notBase notAncestor
  refine ⟨chain, inherited, later, chained, set, spelled.trans ahead, ?_⟩
  intro method provider origin
  obtain ⟨undeclared, closest⟩ :=
    (run.provided distinct fresh).find?_of_providerOf? got chained set origin
  rw [search, closest]
  refine ⟨rfl, ?_, ?_⟩
  · cases record.baseNames.find? (registry.resolve.declares method) with
    | none => simp
    | some base => simp
  · intro base declaring other
    refine ⟨by rw [declaring, Option.some_or], ?_⟩
    obtain ⟨_bases, met, walk, first⟩ := run.walked distinct fresh acyclic _ _ _ got chained
    rw [first, FirstOccurrence.find?_eraseDups_others met undeclared] at closest
    obtain ⟨front, closer, back, found, split, before, there, line⟩ :=
      walk.exists_base run.declarations (run.walked distinct fresh acyclic)
        (fun _ _ => chain_isSome_of_get? fresh) closest
    have skipped : front.find? (registry.resolve.declares method) = none :=
      List.find?_eq_none.mpr fun name listed => by rw [before name listed]; exact Bool.false_ne_true
    rw [split, List.find?_append, skipped, Option.none_or, List.find?_cons] at declaring
    rw [List.find?_cons] at line
    cases declared : registry.resolve.declares method closer with
    | true =>
        rw [declared, Option.some.injEq] at declaring line
        exact absurd (declaring.symm.trans line) other
    | false =>
        rw [declared] at declaring line
        cases chainedCloser : found.chain with
        | none =>
            rw [chainedCloser] at line
            cases line
        | some along =>
            rw [chainedCloser] at line
            exact ⟨front, closer, back, found, along, split, List.mem_of_find?_eq_some declaring,
              there, chainedCloser, declared, line⟩

/-- A base that has a method from further up, before a base that declares it. -/
def unevenBases : Registry :=
  .ofList
    [{ ClassDoc.ofName "Base" 1 with methods := [.ofName "run" 2, .ofName "stop" 3] },
      { ClassDoc.ofName "Left" 4 with baseNames := ["Base"] },
      { ClassDoc.ofName "Right" 5 with methods := [.ofName "run" 6] },
      { ClassDoc.ofName "Leaf" 7 with baseNames := ["Left", "Right"] }]

theorem acyclic_unevenBases : unevenBases.Acyclic :=
  acyclic_of_earlier (by decide)

theorem resolve_search_order_unevenBases :
    unevenBases.DistinctNames ∧ unevenBases.Unresolved ∧ unevenBases.Acyclic ∧
      ∃ record ∈ unevenBases.resolve.classes,
        record.resolutionOrder = some ["Leaf", "Left", "Right", "Base"] ∧
        ∃ inherited, record.inherited = some inherited ∧
          inherited.providerOf? "stop" = some "Base" ∧
          ["Left", "Right", "Base"].find? (unevenBases.resolve.declares "stop") = some "Base" ∧
          inherited.providerOf? "run" = some "Base" ∧
          ["Left", "Right", "Base"].find? (unevenBases.resolve.declares "run") = some "Right" := by
  have distinct : unevenBases.DistinctNames := by
    unfold DistinctNames
    decide
  have fresh : unevenBases.Unresolved := by
    unfold Unresolved
    decide
  obtain ⟨record, member, ordered, bases, stops, runs⟩ :
      ∃ record ∈ unevenBases.resolve.classes,
        record.resolutionOrder = some ["Leaf", "Left", "Right", "Base"] ∧
        record.baseNames = ["Left", "Right"] ∧
        (record.inherited.bind (·.providerOf? "stop")) = some "Base" ∧
        (record.inherited.bind (·.providerOf? "run")) = some "Base" :=
    ⟨unevenBases.resolve.classes.get ⟨3, by decide⟩, List.get_mem _ _, by decide⟩
  obtain ⟨_chain, inherited, later, _chained, set, spelled, search⟩ :=
    resolve_search_order unevenBases distinct fresh acyclic_unevenBases record member _ ordered
  rw [set, Option.bind_some] at stops runs
  obtain ⟨_named, rfl⟩ := List.cons.inj spelled
  have agrees := (search "stop" "Base" stops).2.1.mpr (by rw [bases]; decide)
  have differs := ((search "run" "Base" runs).2.2 "Right" (by rw [bases]; decide) (by decide)).1
  exact ⟨distinct, fresh, acyclic_unevenBases, record, member, ordered, inherited, set, stops,
    agrees, runs, differs⟩

/-- Along the chain the method comes from an ancestor of the first base; in the resolution order the
second base, which declares it, stands before that ancestor. -/
theorem resolution_order_differs_from_chain :
    unevenBases.DistinctNames ∧ unevenBases.Unresolved ∧ unevenBases.Acyclic ∧
      ∃ record ∈ unevenBases.resolve.classes, ∃ inherited,
        record.resolutionOrder = some ["Leaf", "Left", "Right", "Base"] ∧
        record.inherited = some inherited ∧ inherited.providerOf? "run" = some "Base" ∧
        ["Left", "Right", "Base"].find? (unevenBases.resolve.declares "run") = some "Right" := by
  refine ⟨?_, ?_, acyclic_unevenBases, unevenBases.resolve.classes.get ⟨3, by decide⟩,
    List.get_mem _ _, _, by decide, rfl, by decide, by decide⟩
  · unfold DistinctNames
    decide
  · unfold Unresolved
    decide

end Registry

end DocHarvest
