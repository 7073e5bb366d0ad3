import DocHarvest.Proofs.Inheritance.Preorder

/-!
Resolution without regard to the order of registration.

Where the declared bases have no cycle, the record that a class ends with is determined by the
classes that names stand for: a class is completed from the finished records of its registered
bases.  That recursion knows nothing of positions, nor of which class was completed when.
-/

namespace DocHarvest.Registry

/-- The records that names end with, each along with its name.  Names that stand for no class are
left out. -/
inductive Finished (lookup : String → Option ClassDoc) :
    List String → List (String × ClassDoc) → Prop where
  | done : Finished lookup [] []
  | unknown {name : String} {names : List String} {found : List (String × ClassDoc)}
      (missing : lookup name = none) (rest : Finished lookup names found) :
      Finished lookup (name :: names) found
  | kept {name : String} {names : List String} {found : List (String × ClassDoc)}
      {record : ClassDoc} (here : lookup name = some record)
      (idle : (record.isResolved || record.hasTrivialBases) = true)
      (rest : Finished lookup names found) :
      Finished lookup (name :: names) ((name, record) :: found)
  | completed {name : String} {names : List String} {bases found : List (String × ClassDoc)}
      {record : ClassDoc} (here : lookup name = some record)
      (busy : (record.isResolved || record.hasTrivialBases) = false)
      (above : Finished lookup record.baseNames bases) (rest : Finished lookup names found) :
      Finished lookup (name :: names)
        ((name, (Heritage.ofBases record bases).complete record) :: found)

namespace Finished

variable {lookup : String → Option ClassDoc}

theorem unique {names : List String} {found other : List (String × ClassDoc)}
    (left : Finished lookup names found) (right : Finished lookup names other) :
    other = found := by
  induction left generalizing other with
  | done =>
      cases right with
      | done => rfl
  | unknown missing _rest ih =>
      cases right with
      | unknown _missing rest => exact ih rest
      | kept here _idle _rest =>
          rw [missing] at here
          cases here
      | completed here _busy _above _rest =>
          rw [missing] at here
          cases here
  | kept here idle _rest ih =>
      cases right with
      | unknown missing _rest =>
          rw [here] at missing
          cases missing
      | kept again _idle rest =>
          rw [here, Option.some.injEq] at again
          subst again
          rw [ih rest]
      | completed again busy _above _rest =>
          rw [here, Option.some.injEq] at again
          subst again
          rw [idle] at busy
          cases busy
  | completed here busy _above _rest ihAbove ihRest =>
      cases right with
      | unknown missing _rest =>
          rw [here] at missing
          cases missing
      | kept again idle _rest =>
          rw [here, Option.some.injEq] at again
          subst again
          rw [busy] at idle
          cases idle
      | completed again _busy above rest =>
          rw [here, Option.some.injEq] at again
          subst again
          rw [ihAbove above, ihRest rest]

theorem cons {name : String} {names : List String} {found : List (String × ClassDoc)}
    {record : ClassDoc} (first : Finished lookup [name] [(name, record)])
    (rest : Finished lookup names found) :
    Finished lookup (name :: names) ((name, record) :: found) := by
  cases first with
  | unknown _missing none => cases none
  | kept here idle _none => exact .kept here idle rest
  | completed here busy above _none => exact .completed here busy above rest

end Finished

/-! ### Runs finish classes -/

namespace Run

variable {first last : Registry} {order : List Nat}

theorem not_awaits_of_mem (run : Run first order last) {position : Nat}
    (member : position ∈ order) : last.awaits position = false := by
  induction run with
  | done registry => cases member
  | step next rest ih =>
      rcases List.mem_cons.mp member with same | later
      · subst same
        have idle := not_awaits_advance next.here
        exact (awaits_congr (rest.settled idle)).trans idle
      · exact ih later

/-- A class that still awaits completion is as it was at first. -/
theorem waiting (run : Run first order last) {position : Nat}
    (waits : last.awaits position = true) :
    last.classes[position]? = first.classes[position]? := by
  apply run.unchanged
  intro member
  rw [run.not_awaits_of_mem member] at waits
  cases waits

end Run

/-- Every class that does not await completion has its finished record. -/
def Finishing (original registry : Registry) : Prop :=
  ∀ name record, registry.get? name = some record → registry.Ready name →
    Finished original.get? [name] [(name, record)]

theorem Finishing.self {registry : Registry} : Finishing registry registry := by
  intro name record got ready
  obtain ⟨source, place, idle⟩ := ready
  have there := (get?_of_position? place).symm.trans got
  refine .kept got ?_ .done
  rw [awaits_eq there, Bool.not_eq_false'] at idle
  exact idle

private theorem Finishing.readyBases {original registry : Registry}
    (finishing : Finishing original registry)
    (same : registry.declarations = original.declarations) (bases : List String)
    (ready : ∀ base ∈ bases, (registry.get? base).isSome = true → registry.Ready base) :
    Finished original.get? bases (registry.readyBases bases) := by
  induction bases with
  | nil => exact .done
  | cons base rest ih =>
      have others := ih fun other member => ready other (List.mem_cons_of_mem base member)
      rw [readyBases_cons]
      cases got : registry.get? base with
      | none =>
          rw [readyBases_unknown (position?_eq_none got)]
          exact .unknown (get?_none_congr same got) others
      | some record =>
          have known := ready base List.mem_cons_self (Option.isSome_of_eq_some got)
          have mine := finishing base record got known
          obtain ⟨source, place, idle⟩ := known
          rw [readyBases_ready place idle ((get?_of_position? place).symm.trans got)]
          exact mine.cons others

theorem Finishing.advance {original registry : Registry} {position : Nat} {record : ClassDoc}
    (finishing : Finishing original registry) (distinct : registry.DistinctNames)
    (acyclic : registry.Acyclic) (same : registry.declarations = original.declarations)
    (next : registry.Step position record)
    (unchanged : original.classes[position]? = some record) :
    Finishing original (registry.advance position record) := by
  intro name found got ready
  by_cases self : name = record.name
  · subst self
    rw [get?_advance_self distinct next, Option.some.injEq] at got
    subst got
    have registered := get?_of_distinct (distinct.congr same) unchanged
    obtain ⟨_other, again, unresolved, bases⟩ := awaits_iff.mp next.awaiting
    rw [next.here, Option.some.injEq] at again
    subst again
    refine .completed registered (by rw [unresolved, bases]; rfl) ?_ .done
    exact finishing.readyBases same record.baseNames
      fun base member known => ready_of_acyclic distinct acyclic next member known
  -- no other name stands for the class that was completed, as names are distinct
  · rw [get?_advance_other next self] at got
    apply finishing name found got
    obtain ⟨source, place, idle⟩ := ready
    rw [position?_congr (declarations_advance _ _ _)] at place
    have apart : position ≠ source := by
      intro equal
      subst equal
      obtain ⟨holder, there, named⟩ := class_of_position? place
      rw [next.here, Option.some.injEq] at there
      subst there
      exact self named.symm
    exact ⟨source, place, (awaits_congr (advance_other registry record apart)).symm.trans idle⟩

theorem Run.finishing {first last : Registry} {order : List Nat} (run : Run first order last)
    (distinct : first.DistinctNames) (acyclic : first.Acyclic) : Finishing first last := by
  apply run.induct (Finishing first) .self
  intro _before registry position record started next finishing
  have same := started.declarations
  exact finishing.advance (distinct.congr same.symm)
    (fun name cycle => acyclic name (basePath_congr same cycle)) same next
    ((started.waiting next.awaiting).symm.trans next.here)

/-- Without cycles, the record of every name after resolution is its finished record. -/
theorem resolve_finished {registry : Registry} (distinct : registry.DistinctNames)
    (acyclic : registry.Acyclic) {name : String} {record : ClassDoc}
    (got : registry.resolve.get? name = some record) :
    Finished registry.get? [name] [(name, record)] := by
  obtain ⟨order, run, idle⟩ := registry.resolve_run
  obtain ⟨_named, position, place, _here⟩ := get?_eq_some got
  exact run.finishing distinct acyclic name record got ⟨position, place, idle position⟩

/-! ### Permutations -/

theorem get?_eq_some_iff {registry : Registry} (distinct : registry.DistinctNames) {name : String}
    {record : ClassDoc} :
    registry.get? name = some record ↔ record ∈ registry.classes ∧ record.name = name := by
  constructor
  · intro got
    obtain ⟨named, position, _place, here⟩ := get?_eq_some got
    exact ⟨List.mem_of_getElem? here, named⟩
  · rintro ⟨member, named⟩
    obtain ⟨position, here⟩ := List.getElem?_of_mem member
    rw [← named]
    exact get?_of_distinct distinct here

theorem get?_perm {left right : Registry} (perm : left.classes.Perm right.classes)
    (distinct : left.DistinctNames) : left.get? = right.get? := by
  have others : right.DistinctNames := (perm.map ClassDoc.name).nodup distinct
  funext name
  apply Option.ext
  intro record
  rw [get?_eq_some_iff distinct, get?_eq_some_iff others, perm.mem_iff]

theorem Acyclic.of_get? {left right : Registry} (acyclic : left.Acyclic)
    (same : left.get? = right.get?) : right.Acyclic := by
  have edges : right.HasBase = left.HasBase := by
    unfold HasBase
    rw [same]
  unfold Acyclic
  rw [edges]
  exact acyclic

/-- Classes without cycles among their bases, registered in any order, end with the same records
under every name. -/
theorem resolve_perm (classes other : List ClassDoc) (perm : classes.Perm other)
    (distinct : (ofList classes).DistinctNames) (acyclic : (ofList classes).Acyclic)
    (name : String) :
    (ofList classes).resolve.get? name = (ofList other).resolve.get? name := by
  have records : (ofList classes).classes.Perm (ofList other).classes := by
    rw [ofList_classes, ofList_classes]
    exact perm
  have same : (ofList classes).get? = (ofList other).get? := get?_perm records distinct
  have distinct' : (ofList other).DistinctNames := (records.map ClassDoc.name).nodup distinct
  have acyclic' := acyclic.of_get? same
  cases got : (ofList other).resolve.get? name with
  | none =>
      have missing := get?_none_congr (declarations_resolve _) got
      rw [← same] at missing
      exact get?_none_congr (declarations_resolve _).symm missing
  | some record =>
      obtain ⟨before, registered, _declared⟩ := get?_congr (declarations_resolve _) got
      rw [← same] at registered
      obtain ⟨after, there, _declared⟩ := get?_congr (declarations_resolve _).symm registered
      have left := resolve_finished distinct acyclic there
      have right := resolve_finished distinct' acyclic' got
      rw [← same] at right
      have equal := right.unique left
      rw [there]
      simpa using equal

theorem resolve_perm_plainDiamond :
    (ofList plainDiamond.classes).DistinctNames ∧ (ofList plainDiamond.classes).Acyclic ∧
      ∃ record, (ofList plainDiamond.classes).resolve.get? "Leaf" = some record ∧
        (ofList plainDiamond.classes.reverse).resolve.get? "Leaf" = some record ∧
        record.chain = some ["Left", "Root", "Right"] ∧
        record.resolutionOrder = some ["Leaf", "Left", "Right", "Root"] := by
  have distinct : (ofList plainDiamond.classes).DistinctNames := by
    unfold DistinctNames
    decide
  have acyclic : (ofList plainDiamond.classes).Acyclic := acyclic_of_earlier (by decide)
  refine ⟨distinct, acyclic, _, rfl, ?_, by decide, by decide⟩
  exact (resolve_perm plainDiamond.classes plainDiamond.classes.reverse
    (List.reverse_perm _).symm distinct acyclic "Leaf").symm

end DocHarvest.Registry
