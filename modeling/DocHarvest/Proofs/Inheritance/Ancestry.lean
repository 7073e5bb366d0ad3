import DocHarvest.Proofs.Inheritance.Completion

/-!
The relation between classes and the ancestors in their chains.

Names are distinct throughout.  A class is completed from bases that are ready, and a chain mentions
classes only that were ready before it was made.  The class itself is not among those, so chains
never lead back, whatever the declared bases do.
-/

namespace DocHarvest.Registry

/-- No class carries anything that resolution sets. -/
def Unresolved (registry : Registry) : Prop :=
  ∀ record ∈ registry.classes,
    record.chain = none ∧ record.inherited = none ∧ record.resolutionOrder = none

/-- The chain of a class lists an ancestor; a class without chain has none. -/
def Ancestor (registry : Registry) (name ancestor : String) : Prop :=
  ∃ record, registry.get? name = some record ∧ ancestor ∈ record.chain.getD []

/-- A registered class declares another one, or itself, as a base. -/
def HasBase (registry : Registry) (name base : String) : Prop :=
  ∃ record, registry.get? name = some record ∧ base ∈ record.baseNames ∧
    (registry.get? base).isSome = true

/-- A name stands for a class that does not await completion. -/
def Ready (registry : Registry) (name : String) : Prop :=
  ∃ source, registry.position? name = some source ∧ registry.awaits source = false

/-- Two classes that declare each other as a base, and one below them with bases that are missing,
repeated or the class itself. -/
def loopedDiamond : Registry :=
  .ofList
    [{ ClassDoc.ofName "Left" 1 with
        baseNames := ["Right", "Root"]
        methods := [.ofName "ping" 2] },
      { ClassDoc.ofName "Right" 3 with
        baseNames := ["Left", "Root"]
        methods := [.ofName "pong" 4] },
      { ClassDoc.ofName "Root" 5 with
        methods := [.ofName "ping" 6, .ofName "__str__" 7] },
      { ClassDoc.ofName "Leaf" 8 with
        baseNames := ["Missing", "Leaf", "Right", "Left", "Right"]
        methods := [.ofName "pong" 9] }]

theorem hasBase_congr {left right : Registry} (same : left.declarations = right.declarations)
    {name base : String} (edge : left.HasBase name base) : right.HasBase name base := by
  obtain ⟨record, found, member, known⟩ := edge
  obtain ⟨other, there, equal⟩ := get?_congr same found
  refine ⟨other, there, ?_, ?_⟩
  · rw [ClassDoc.baseNames_of_declaration equal]
    exact member
  · rw [← get?_isSome_congr same]
    exact known

theorem basePath_congr {left right : Registry} (same : left.declarations = right.declarations)
    {name base : String} (path : Relation.TransGen left.HasBase name base) :
    Relation.TransGen right.HasBase name base :=
  Relation.TransGen.mono (fun _ _ edge => hasBase_congr same edge) _ _ path

theorem Unresolved.get? {registry : Registry} (fresh : registry.Unresolved) {name : String}
    {record : ClassDoc} (found : registry.get? name = some record) :
    record.chain = none ∧ record.inherited = none ∧ record.resolutionOrder = none := by
  obtain ⟨_named, position, _place, here⟩ := get?_eq_some found
  exact fresh record (List.mem_of_getElem? here)

theorem Unresolved.not_ancestor {registry : Registry} (fresh : registry.Unresolved)
    (name ancestor : String) : ¬registry.Ancestor name ancestor := by
  rintro ⟨record, found, member⟩
  rw [(fresh.get? found).1] at member
  cases member

theorem ancestor_iff_mem {registry : Registry} {name ancestor : String} {record : ClassDoc}
    {chain : List String} (got : registry.get? name = some record)
    (chained : record.chain = some chain) :
    registry.Ancestor name ancestor ↔ ancestor ∈ chain := by
  unfold Ancestor
  rw [got]
  constructor
  · rintro ⟨found, again, listed⟩
    cases again
    rwa [chained] at listed
  · intro listed
    refine ⟨record, rfl, ?_⟩
    rwa [chained]

theorem Ready.get? {registry : Registry} {name : String} (ready : registry.Ready name) :
    ∃ record, registry.get? name = some record := by
  obtain ⟨source, place, _idle⟩ := ready
  obtain ⟨record, there, _named⟩ := class_of_position? place
  exact ⟨record, (get?_of_position? place).trans there⟩

theorem mem_readyBases {registry : Registry} {bases : List String} {base : String}
    {found : ClassDoc} :
    (base, found) ∈ registry.readyBases bases ↔
      base ∈ bases ∧ registry.Ready base ∧ registry.get? base = some found := by
  unfold readyBases
  rw [List.mem_filterMap]
  constructor
  · rintro ⟨name, member, taken⟩
    rw [Option.bind_eq_some_iff] at taken
    obtain ⟨source, place, taken⟩ := taken
    cases idle : registry.awaits source with
    | true =>
        rw [idle, if_pos rfl] at taken
        cases taken
    | false =>
        rw [idle, if_neg Bool.false_ne_true, Option.map_eq_some_iff] at taken
        obtain ⟨record, there, same⟩ := taken
        cases same
        exact ⟨member, ⟨source, place, idle⟩, (get?_of_position? place).trans there⟩
  · rintro ⟨member, ⟨source, place, idle⟩, there⟩
    refine ⟨base, member, ?_⟩
    rw [get?_of_position? place] at there
    simp only [place, Option.bind_some, idle, there, Option.map_some]
    rfl

/-! ### One step -/

section Step

variable {registry : Registry} {position : Nat} {record : ClassDoc}
  (distinct : registry.DistinctNames) (next : registry.Step position record)

include distinct next

theorem get?_advance_self :
    (registry.advance position record).get? record.name = some (registry.completion record) := by
  have place : (registry.advance position record).position? record.name = some position := by
    rw [position?_congr (declarations_advance _ _ _)]
    exact position?_of_distinct distinct next.here
  rw [get?_of_position? place, advance_same next.here]

omit distinct in
theorem get?_advance_other {name : String} (other : name ≠ record.name) :
    (registry.advance position record).get? name = registry.get? name := by
  cases place : registry.position? name with
  | none =>
      unfold get?
      rw [position?_congr (declarations_advance _ _ _), place]
      rfl
  | some source =>
      have apart : position ≠ source := by
        intro same
        subst same
        obtain ⟨found, there, named⟩ := class_of_position? place
        rw [next.here, Option.some.injEq] at there
        subst there
        exact other named.symm
      have kept : (registry.advance position record).position? name = some source := by
        rw [position?_congr (declarations_advance _ _ _), place]
      rw [get?_of_position? kept, get?_of_position? place, advance_other registry record apart]

omit distinct in
theorem Ready.advance {name : String} (ready : registry.Ready name) :
    (registry.advance position record).Ready name := by
  obtain ⟨source, place, idle⟩ := ready
  refine ⟨source, ?_, ?_⟩
  · rw [position?_congr (declarations_advance _ _ _), place]
  · by_cases same : position = source
    · subst same
      exact not_awaits_advance next.here
    · rw [awaits_congr (advance_other registry record same)]
      exact idle

theorem not_ready_self : ¬registry.Ready record.name := by
  rintro ⟨source, place, idle⟩
  rw [position?_of_distinct distinct next.here, Option.some.injEq] at place
  subst place
  rw [next.awaiting] at idle
  cases idle

/-- A completed class lists its ready bases and their ancestors. -/
theorem ancestor_advance_self {ancestor : String} :
    (registry.advance position record).Ancestor record.name ancestor ↔
      ancestor ≠ record.name ∧ ∃ base ∈ record.baseNames, registry.Ready base ∧
        (ancestor = base ∨ registry.Ancestor base ancestor) := by
  have line : (registry.advance position record).Ancestor record.name ancestor ↔
      ancestor ∈ (Heritage.ofBases record (registry.readyBases record.baseNames)).chain :=
    ancestor_iff_mem (get?_advance_self distinct next) rfl
  rw [line, Heritage.ofBases_chain, List.mem_eraseDups, List.mem_filter, bne_iff_ne, and_comm]
  apply and_congr_right
  intro _other
  unfold Heritage.lineOf
  rw [List.mem_flatMap]
  constructor
  · rintro ⟨⟨base, found⟩, taken, member⟩
    obtain ⟨declared, ready, there⟩ := mem_readyBases.mp taken
    exact ⟨base, declared, ready, (List.mem_cons.mp member).imp_right fun listed =>
      ⟨found, there, listed⟩⟩
  · rintro ⟨base, declared, ready, either⟩
    obtain ⟨found, there⟩ := ready.get?
    refine ⟨(base, found), mem_readyBases.mpr ⟨declared, ready, there⟩, ?_⟩
    rw [List.mem_cons]
    apply either.imp_right
    rintro ⟨other, again, listed⟩
    rw [there, Option.some.injEq] at again
    subst again
    exact listed

omit distinct in
theorem ancestor_advance_other {name ancestor : String} (other : name ≠ record.name) :
    (registry.advance position record).Ancestor name ancestor ↔
      registry.Ancestor name ancestor := by
  unfold Ancestor
  rw [get?_advance_other next other]

end Step

/-! ### Invariant -/

/-- The chains lead to ready classes only, and form a strict order along declared bases. -/
structure Ancestral (registry : Registry) : Prop where
  ready : ∀ {name ancestor}, registry.Ancestor name ancestor → registry.Ready ancestor
  irrefl : ∀ name, ¬registry.Ancestor name name
  trans : ∀ {name ancestor further}, registry.Ancestor name ancestor →
    registry.Ancestor ancestor further → registry.Ancestor name further
  through : ∀ {name ancestor}, registry.Ancestor name ancestor →
    ∃ record base, registry.get? name = some record ∧ base ∈ record.baseNames ∧
      registry.Ancestor name base ∧ (ancestor = base ∨ registry.Ancestor base ancestor)
  reaches : ∀ {name ancestor}, registry.Ancestor name ancestor →
    Relation.TransGen registry.HasBase name ancestor

theorem Unresolved.ancestral {registry : Registry} (fresh : registry.Unresolved) :
    registry.Ancestral where
  ready := fun line => (fresh.not_ancestor _ _ line).elim
  irrefl := fun name => fresh.not_ancestor name name
  trans := fun line => (fresh.not_ancestor _ _ line).elim
  through := fun line => (fresh.not_ancestor _ _ line).elim
  reaches := fun line => (fresh.not_ancestor _ _ line).elim

namespace Ancestral

variable {registry : Registry} {position : Nat} {record : ClassDoc}

theorem ready_advance (ancestral : registry.Ancestral) (distinct : registry.DistinctNames)
    (next : registry.Step position record) {name ancestor : String}
    (line : (registry.advance position record).Ancestor name ancestor) :
    registry.Ready ancestor := by
  by_cases self : name = record.name
  · subst self
    obtain ⟨_other, base, _member, ready, either⟩ := (ancestor_advance_self distinct next).mp line
    rcases either with same | further
    · subst same
      exact ready
    · exact ancestral.ready further
  · exact ancestral.ready ((ancestor_advance_other next self).mp line)

theorem proper_advance (ancestral : registry.Ancestral) (distinct : registry.DistinctNames)
    (next : registry.Step position record) {name ancestor : String}
    (line : (registry.advance position record).Ancestor name ancestor) :
    ancestor ≠ record.name := by
  intro same
  subst same
  exact not_ready_self distinct next (ancestral.ready_advance distinct next line)

theorem advance (ancestral : registry.Ancestral) (distinct : registry.DistinctNames)
    (next : registry.Step position record) :
    (registry.advance position record).Ancestral := by
  have proper {name ancestor : String}
      (line : (registry.advance position record).Ancestor name ancestor) :=
    ancestral.proper_advance distinct next line
  have unready := not_ready_self distinct next
  refine
    { ready := fun line => (ancestral.ready_advance distinct next line).advance next
      irrefl := ?_
      trans := ?_
      through := ?_
      reaches := ?_ }
  · intro name line
    exact ancestral.irrefl name ((ancestor_advance_other next (proper line)).mp line)
  · intro name ancestor further line above
    have old := (ancestor_advance_other next (proper line)).mp above
    by_cases self : name = record.name
    · subst self
      obtain ⟨_other, base, member, start, either⟩ := (ancestor_advance_self distinct next).mp line
      rw [ancestor_advance_self distinct next]
      refine ⟨proper above, base, member, start, Or.inr ?_⟩
      rcases either with same | below
      · subst same
        exact old
      · exact ancestral.trans below old
    · rw [ancestor_advance_other next self] at line ⊢
      exact ancestral.trans line old
  · intro name ancestor line
    by_cases self : name = record.name
    · subst self
      obtain ⟨_other, base, member, start, either⟩ := (ancestor_advance_self distinct next).mp line
      have apart : base ≠ record.name := by
        intro same
        subst same
        exact unready start
      refine ⟨_, base, get?_advance_self distinct next, member, ?_, ?_⟩
      · rw [ancestor_advance_self distinct next]
        exact ⟨apart, base, member, start, Or.inl rfl⟩
      · rw [ancestor_advance_other next apart]
        exact either
    · rw [ancestor_advance_other next self] at line
      obtain ⟨found, base, got, member, direct, either⟩ := ancestral.through line
      have apart : base ≠ record.name := by
        intro same
        subst same
        exact unready (ancestral.ready direct)
      refine ⟨found, base, (get?_advance_other next self).trans got, member, ?_, ?_⟩
      · rw [ancestor_advance_other next self]
        exact direct
      · rw [ancestor_advance_other next apart]
        exact either
  · intro name ancestor line
    apply basePath_congr (declarations_advance _ _ _).symm
    by_cases self : name = record.name
    · subst self
      obtain ⟨_other, base, member, start, either⟩ := (ancestor_advance_self distinct next).mp line
      obtain ⟨found, there⟩ := start.get?
      have edge : registry.HasBase record.name base :=
        ⟨record, get?_of_distinct distinct next.here, member, Option.isSome_of_eq_some there⟩
      rcases either with same | above
      · subst same
        exact .single edge
      · exact .head edge (ancestral.reaches above)
    · exact ancestral.reaches ((ancestor_advance_other next self).mp line)

end Ancestral

theorem Run.ancestral {first last : Registry} {order : List Nat} (run : Run first order last)
    (distinct : first.DistinctNames) (fresh : first.Unresolved) : last.Ancestral := by
  apply run.induct Ancestral fresh.ancestral
  intro _before registry position record started next ancestral
  exact ancestral.advance (distinct.congr started.declarations.symm) next

/-- Exactly the classes with bases other than `object` get a chain. -/
theorem chain_isSome_resolve {registry : Registry} (fresh : registry.Unresolved)
    {record : ClassDoc} (member : record ∈ registry.resolve.classes) :
    record.chain.isSome = !record.hasTrivialBases := by
  obtain ⟨order, run, idle⟩ := registry.resolve_run
  obtain ⟨position, here⟩ := List.getElem?_of_mem member
  obtain ⟨before, there, same⟩ := class_congr run.declarations here
  have bases := ClassDoc.hasTrivialBases_of_declaration same
  cases trivial : record.hasTrivialBases with
  | true =>
      have still : registry.awaits position = false :=
        not_awaits_of_trivial there (by rw [bases, trivial, Bool.or_true])
      have kept := run.settled still
      rw [here, there, Option.some.injEq] at kept
      rw [kept, (fresh before (List.mem_of_getElem? there)).1]
      rfl
  | false =>
      cases chained : record.chain with
      | some chain => rfl
      | none =>
          have unresolved : record.isResolved = false := by
            simp [ClassDoc.isResolved, chained]
          have waits := awaits_iff.mpr ⟨record, here, unresolved, trivial⟩
          rw [idle position] at waits
          cases waits

end DocHarvest.Registry
