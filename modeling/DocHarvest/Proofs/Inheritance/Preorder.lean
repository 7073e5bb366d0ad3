import DocHarvest.Proofs.Inheritance.Ancestry

/-!
Chains as depth-first walks.

A walk goes over registered bases from left to right, each class before its own bases.  Where the
declared bases have no cycle, no base is ever passed over, and the chain of a class is the list of
first occurrences in its walk.
-/

namespace DocHarvest.Registry

/-- The names met, with repetitions, in a depth-first walk over a list of bases.  Bases that are
not registered are left out, and classes without bases other than `object` are not expanded. -/
inductive Walk (registry : Registry) : List String → List String → Prop where
  | done : Walk registry [] []
  | unknown {name : String} {names met : List String} (missing : registry.get? name = none)
      (rest : Walk registry names met) : Walk registry (name :: names) met
  | visit {name : String} {names below met : List String} {record : ClassDoc}
      (found : registry.get? name = some record)
      (inside : Walk registry (if record.hasTrivialBases then [] else record.baseNames) below)
      (rest : Walk registry names met) : Walk registry (name :: names) (name :: (below ++ met))

theorem Walk.unique {registry : Registry} {names met other : List String}
    (left : Walk registry names met) (right : Walk registry names other) : other = met := by
  induction left generalizing other with
  | done =>
      cases right with
      | done => rfl
  | unknown missing _rest ih =>
      cases right with
      | unknown _missing rest => exact ih rest
      | visit found _inside _rest =>
          rw [missing] at found
          cases found
  | visit found _inside _rest ihInside ihRest =>
      cases right with
      | unknown missing _rest =>
          rw [found] at missing
          cases missing
      | visit again inside rest =>
          rw [found, Option.some.injEq] at again
          subst again
          rw [ihInside inside, ihRest rest]

/-- The declared bases have no cycle among registered classes. -/
def Acyclic (registry : Registry) : Prop :=
  ∀ name, ¬Relation.TransGen registry.HasBase name name

/-! ### No base is passed over -/

private theorem hasBase_of_extends {registry : Registry} (distinct : registry.DistinctNames)
    {position source : Nat} {record found : ClassDoc}
    (here : registry.classes[position]? = some record)
    (there : registry.classes[source]? = some found) (edge : registry.Extends position source) :
    registry.HasBase record.name found.name := by
  obtain ⟨declarer, base, again, member, place⟩ := edge
  rw [here, Option.some.injEq] at again
  subst again
  obtain ⟨other, placed, named⟩ := class_of_position? place
  rw [there, Option.some.injEq] at placed
  subst placed
  subst named
  exact ⟨record, get?_of_distinct distinct here, member,
    Option.isSome_of_eq_some (get?_of_distinct distinct there)⟩

private theorem basePath_of_reaches {registry : Registry} (distinct : registry.DistinctNames)
    {source position : Nat} {found record : ClassDoc}
    (there : registry.classes[source]? = some found)
    (here : registry.classes[position]? = some record)
    (path : Relation.ReflTransGen registry.Extends source position) :
    Relation.ReflTransGen registry.HasBase found.name record.name := by
  induction path generalizing record with
  | refl =>
      rw [there, Option.some.injEq] at here
      subst here
      exact .refl
  | tail _path edge ih =>
      have ⟨middle, _base, between, _member, _place⟩ := edge
      exact (ih between).tail (hasBase_of_extends distinct between here edge)

/-- Without cycles, every registered base of a class is ready when the class is completed. -/
theorem ready_of_acyclic {registry : Registry} (distinct : registry.DistinctNames)
    (acyclic : registry.Acyclic) {position : Nat} {record : ClassDoc}
    (next : registry.Step position record) {base : String} (member : base ∈ record.baseNames)
    (known : (registry.get? base).isSome = true) : registry.Ready base := by
  obtain ⟨found, got⟩ := Option.isSome_iff_exists.mp known
  obtain ⟨_named, source, place, there⟩ := get?_eq_some got
  have edge : registry.Extends position source := ⟨record, base, next.here, member, place⟩
  refine ⟨source, place, ?_⟩
  by_contra waits
  rw [Bool.not_eq_false] at waits
  have back := basePath_of_reaches distinct there next.here (next.passedOver source edge waits)
  exact acyclic record.name (.head' (hasBase_of_extends distinct next.here there edge) back)

/-! ### Invariant -/

/-- Every chain consists of the first occurrences in the walk of its class. -/
def Walked (original registry : Registry) : Prop :=
  ∀ name record chain, registry.get? name = some record → record.chain = some chain →
    record.hasTrivialBases = false ∧ ∃ met, original.Walk record.baseNames met ∧
      chain = (met.filter (· != name)).eraseDups

/-- The ancestors that ready bases bring are those of a walk, up to repetitions. -/
private theorem walk_of_readyBases {original registry : Registry}
    (same : registry.declarations = original.declarations) (walked : Walked original registry)
    (bases : List String)
    (ready : ∀ base ∈ bases, (registry.get? base).isSome = true → registry.Ready base) :
    ∃ met, original.Walk bases met ∧
      (Heritage.lineOf (registry.readyBases bases)).eraseDups = met.eraseDups := by
  induction bases with
  | nil => exact ⟨[], .done, rfl⟩
  | cons base rest ih =>
      obtain ⟨met, walk, line⟩ := ih fun other member =>
        ready other (List.mem_cons_of_mem base member)
      cases got : registry.get? base with
      | none =>
          refine ⟨met, .unknown (get?_none_congr same got) walk, ?_⟩
          rw [readyBases_cons, readyBases_unknown (position?_eq_none got), List.nil_append]
          exact line
      | some found =>
          obtain ⟨record, registered, equal⟩ := get?_congr same got
          obtain ⟨source, place, idle⟩ :=
            ready base List.mem_cons_self (Option.isSome_of_eq_some got)
          have there : registry.classes[source]? = some found :=
            (get?_of_position? place).symm.trans got
          have trivial := ClassDoc.hasTrivialBases_of_declaration equal
          have split : Heritage.lineOf (registry.readyBases (base :: rest)) =
              (base :: found.chain.getD []) ++ Heritage.lineOf (registry.readyBases rest) := by
            rw [readyBases_cons, readyBases_ready place idle there]
            exact List.flatMap_cons
          rw [split]
          cases chained : found.chain with
          | none =>
              have plain : record.hasTrivialBases = true := by
                rw [trivial]
                by_contra bases
                rw [Bool.not_eq_true] at bases
                have waits := awaits_iff.mpr ⟨found, there, by simp [ClassDoc.isResolved, chained],
                  bases⟩
                rw [idle] at waits
                cases waits
              refine ⟨base :: ([] ++ met), .visit registered ?_ walk, ?_⟩
              · rw [if_pos plain]
                exact .done
              · exact FirstOccurrence.eraseDups_cons_congr base line
          | some chain =>
              obtain ⟨bases, below, inside, first⟩ := walked base found chain got chained
              refine ⟨base :: (below ++ met), .visit registered ?_ walk, ?_⟩
              · rw [trivial, bases, if_neg Bool.false_ne_true,
                  ClassDoc.baseNames_of_declaration equal]
                exact inside
              · have own : (base :: chain).eraseDups = (base :: below).eraseDups := by
                  rw [← FirstOccurrence.eraseDups_cons_filter base below, first]
                  exact FirstOccurrence.eraseDups_cons_congr base
                    (FirstOccurrence.eraseDups_eraseDups _)
                exact FirstOccurrence.eraseDups_append_congr own line

theorem Walked.advance {original registry : Registry} {position : Nat} {record : ClassDoc}
    (walked : Walked original registry) (distinct : registry.DistinctNames)
    (acyclic : registry.Acyclic) (same : registry.declarations = original.declarations)
    (next : registry.Step position record) :
    Walked original (registry.advance position record) := by
  intro name found chain got chained
  by_cases self : name = record.name
  · subst self
    rw [get?_advance_self distinct next, Option.some.injEq] at got
    subst got
    obtain ⟨met, walk, line⟩ := walk_of_readyBases same walked record.baseNames
      fun base member known => ready_of_acyclic distinct acyclic next member known
    refine ⟨next.hasBases, met, walk, ?_⟩
    change some (Heritage.ofBases record (registry.readyBases record.baseNames)).chain =
      some chain at chained
    rw [Option.some.injEq, Heritage.ofBases_chain, FirstOccurrence.eraseDups_filter, line,
      ← FirstOccurrence.eraseDups_filter] at chained
    exact chained.symm
  · rw [get?_advance_other next self] at got
    exact walked name found chain got chained

theorem Run.walked {first last : Registry} {order : List Nat} (run : Run first order last)
    (distinct : first.DistinctNames) (fresh : first.Unresolved) (acyclic : first.Acyclic) :
    Walked first last := by
  apply run.induct (Walked first)
  · intro name record chain got chained
    rw [(fresh.get? got).1] at chained
    cases chained
  · intro _before registry position record started next walked
    have same := started.declarations
    exact walked.advance (distinct.congr same.symm)
      (fun name cycle => acyclic name (basePath_congr same cycle)) same next

/-- The chains form a strict order along declared bases, and without cycles each chain is the
depth-first walk of its class. -/
theorem resolve_ancestry (registry : Registry) (distinct : registry.DistinctNames)
    (fresh : registry.Unresolved) :
    (∀ name, ¬registry.resolve.Ancestor name name) ∧
    (∀ name ancestor further, registry.resolve.Ancestor name ancestor →
      registry.resolve.Ancestor ancestor further → registry.resolve.Ancestor name further) ∧
    (∀ name, ¬Relation.TransGen registry.resolve.Ancestor name name) ∧
    (∀ name ancestor, registry.resolve.Ancestor name ancestor →
      (registry.get? ancestor).isSome = true ∧
        Relation.TransGen registry.HasBase name ancestor) ∧
    (registry.Acyclic → ∀ record ∈ registry.classes, record.hasTrivialBases = false →
      ∃ after met, registry.resolve.get? record.name = some after ∧
        registry.Walk record.baseNames met ∧
        (∀ other, registry.Walk record.baseNames other → other = met) ∧
        after.chain = some ((met.filter (· != record.name)).eraseDups)) := by
  obtain ⟨order, run, idle⟩ := registry.resolve_run
  have ancestral := run.ancestral distinct fresh
  have chained (name ancestor : String)
      (path : Relation.TransGen registry.resolve.Ancestor name ancestor) :
      registry.resolve.Ancestor name ancestor := by
    induction path with
    | single line => exact line
    | tail _path line ih => exact ancestral.trans ih line
  refine ⟨ancestral.irrefl, fun _ _ _ => ancestral.trans, ?_, ?_, ?_⟩
  · intro name cycle
    exact ancestral.irrefl name (chained name name cycle)
  · intro name ancestor line
    obtain ⟨found, got⟩ := (ancestral.ready line).get?
    refine ⟨?_, basePath_congr run.declarations (ancestral.reaches line)⟩
    rw [← get?_isSome_congr run.declarations, got]
    rfl
  · intro acyclic record member bases
    obtain ⟨position, here⟩ := List.getElem?_of_mem member
    have unresolved : record.isResolved = false := by
      simp [ClassDoc.isResolved, (fresh record member).1]
    obtain ⟨sources, there⟩ := run.completed here
      (awaits_iff.mpr ⟨record, here, unresolved, bases⟩) (idle position)
    have got := get?_of_distinct (distinct.congr run.declarations.symm) there
    have named : ((Heritage.ofBases record sources).complete record).name = record.name := rfl
    rw [named] at got
    obtain ⟨_bases, met, walk, first⟩ :=
      run.walked distinct fresh acyclic record.name _ _ got rfl
    exact ⟨_, met, got, walk, fun other again => walk.unique again, congrArg some first⟩

theorem acyclic_of_earlier {registry : Registry}
    (earlier : ∀ record ∈ registry.classes, ∀ base ∈ record.baseNames,
      (registry.get? base).isSome = true →
        (registry.position? base).getD 0 < (registry.position? record.name).getD 0) :
    registry.Acyclic := by
  have decreases {name base : String} (path : Relation.TransGen registry.HasBase name base) :
      (registry.position? base).getD 0 < (registry.position? name).getD 0 := by
    have one {name base : String} (edge : registry.HasBase name base) :
        (registry.position? base).getD 0 < (registry.position? name).getD 0 := by
      obtain ⟨record, found, member, known⟩ := edge
      obtain ⟨named, position, _place, here⟩ := get?_eq_some found
      rw [← named]
      exact earlier record (List.mem_of_getElem? here) base member known
    induction path with
    | single edge => exact one edge
    | tail _path edge ih => exact Nat.lt_trans (one edge) ih
  intro name cycle
  exact Nat.lt_irrefl _ (decreases cycle)

/-- A diamond whose root has a base that is not expanded. -/
def plainDiamond : Registry :=
  .ofList
    [.ofName "object" 1,
      { ClassDoc.ofName "Root" 2 with baseNames := ["object"] },
      { ClassDoc.ofName "Left" 3 with baseNames := ["Root"] },
      { ClassDoc.ofName "Right" 4 with baseNames := ["Root", "Missing"] },
      { ClassDoc.ofName "Leaf" 5 with baseNames := ["Left", "Right"] }]

theorem resolve_ancestry_plainDiamond :
    plainDiamond.DistinctNames ∧ plainDiamond.Unresolved ∧ plainDiamond.Acyclic ∧
      ¬Relation.TransGen plainDiamond.resolve.Ancestor "Leaf" "Leaf" ∧
      ∃ after, plainDiamond.resolve.get? "Leaf" = some after ∧
        plainDiamond.Walk ["Left", "Right"] ["Left", "Root", "Right", "Root"] ∧
        after.chain = some ["Left", "Root", "Right"] := by
  have distinct : plainDiamond.DistinctNames := by
    unfold DistinctNames
    decide
  have fresh : plainDiamond.Unresolved := by
    unfold Unresolved
    decide
  have acyclic : plainDiamond.Acyclic := acyclic_of_earlier (by decide)
  have nothing : plainDiamond.Walk [] [] := .done
  have missing : plainDiamond.Walk ["Missing"] [] := .unknown rfl nothing
  have root : plainDiamond.Walk ["Root"] ("Root" :: ([] ++ [])) := .visit rfl nothing nothing
  have roots : plainDiamond.Walk ["Root", "Missing"] ("Root" :: ([] ++ [])) :=
    .visit rfl nothing missing
  have right : plainDiamond.Walk ["Right"] ("Right" :: (["Root"] ++ [])) :=
    .visit rfl roots nothing
  have walk : plainDiamond.Walk ["Left", "Right"] ("Left" :: (["Root"] ++ ["Right", "Root"])) :=
    .visit rfl root right
  obtain ⟨_irrefl, _trans, noCycle, _reached, walked⟩ :=
    resolve_ancestry plainDiamond distinct fresh
  obtain ⟨after, met, got, _walk, only, chained⟩ := walked acyclic
    (plainDiamond.classes.get ⟨4, by decide⟩) (List.get_mem _ _) (by decide)
  rw [← only _ walk] at chained
  exact ⟨distinct, fresh, acyclic, noCycle "Leaf", after, got, walk, chained⟩

end DocHarvest.Registry
