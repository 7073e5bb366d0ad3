import DocHarvest.Proofs.Inheritance.Completion

/-!
Registries over time.

A registry grows by registrations, with resolutions in between.  Resolution changes no declaration
and moves no class, so that names and positions depend on the registrations alone; and a class that
has its chain is never touched again, whatever is registered later under the names of its bases.
-/

namespace DocHarvest.Registry

/-- What can be done with a registry. -/
inductive Operation where
  | register (record : ClassDoc)
  | resolve

def Operation.apply (registry : Registry) : Operation → Registry
  | .register record => registry.register record
  | .resolve => registry.resolve

/-- Perform operations one after the other, beginning without classes. -/
def perform (operations : List Operation) : Registry :=
  operations.foldl Operation.apply empty

/-- The classes of the registrations among some operations. -/
def registered (operations : List Operation) : List ClassDoc :=
  operations.filterMap fun operation =>
    match operation with
    | .register record => some record
    | .resolve => none

theorem perform_concat (operations : List Operation) (operation : Operation) :
    perform (operations ++ [operation]) = operation.apply (perform operations) := by
  unfold perform
  rw [List.foldl_append, List.foldl_cons, List.foldl_nil]

theorem registered_concat_register (operations : List Operation) (record : ClassDoc) :
    registered (operations ++ [.register record]) = registered operations ++ [record] := by
  unfold registered
  rw [List.filterMap_append]
  rfl

theorem registered_concat_resolve (operations : List Operation) :
    registered (operations ++ [.resolve]) = registered operations := by
  unfold registered
  rw [List.filterMap_append]
  exact List.append_nil _

/-- Positions and declarations are those of the registrations, resolutions left out. -/
theorem declarations_perform (operations : List Operation) :
    (perform operations).declarations = (registered operations).map ClassDoc.declaration := by
  induction operations using List.reverseRecOn with
  | nil => rfl
  | append_singleton operations operation ih =>
      rw [perform_concat]
      cases operation with
      | register record =>
          rw [registered_concat_register]
          unfold declarations at ih ⊢
          rw [List.map_append, ← ih]
          exact List.map_append
      | resolve =>
          rw [registered_concat_resolve, ← ih]
          exact declarations_resolve _

/-! ### The last class of a name -/

/-- The class at a position has a name, and none after it has. -/
def LastNamed (classes : List ClassDoc) (name : String) (position : Nat) : Prop :=
  (∃ record, classes[position]? = some record ∧ record.name = name) ∧
    ∀ (later : Nat) (other : ClassDoc), position < later → classes[later]? = some other →
      other.name ≠ name

theorem lastPosition?_eq_some_iff {classes : List ClassDoc} {name : String} {position : Nat} :
    lastPosition? name 0 classes = some position ↔ LastNamed classes name position := by
  -- from the end: the class registered last decides if it has the name, and is no hindrance if not
  induction classes using List.reverseRecOn with
  | nil => simp [lastPosition?, LastNamed]
  | append_singleton classes record ih =>
      have last : (classes ++ [record])[classes.length]? = some record :=
        List.getElem?_concat_length
      have bound {place : Nat} {found : ClassDoc}
          (there : (classes ++ [record])[place]? = some found) : place ≤ classes.length := by
        have total := (List.getElem?_eq_some_iff.mp there).1
        rw [List.length_append, List.length_singleton] at total
        omega
      have earlier {place : Nat} (before : place < classes.length) :
          (classes ++ [record])[place]? = classes[place]? := List.getElem?_append_left before
      rw [lastPosition?_concat]
      by_cases same : record.name = name
      · rw [if_pos (beq_iff_eq.mpr same), Option.some.injEq]
        constructor
        · intro here
          subst here
          refine ⟨⟨record, last, same⟩, ?_⟩
          intro later other beyond there
          have within := bound there
          omega
        · rintro ⟨⟨found, here, _named⟩, none⟩
          have within := bound here
          by_contra apart
          exact none classes.length record (by omega) last same
      · rw [if_neg (mt beq_iff_eq.mp same), ih]
        constructor
        · rintro ⟨⟨found, here, named⟩, none⟩
          have within := (List.getElem?_eq_some_iff.mp here).1
          refine ⟨⟨found, (earlier within).trans here, named⟩, ?_⟩
          intro later other beyond there
          rcases Nat.lt_or_eq_of_le (bound there) with before | final
          · rw [earlier before] at there
            exact none later other beyond there
          · subst final
            rw [last, Option.some.injEq] at there
            subst there
            exact same
        · rintro ⟨⟨found, here, named⟩, none⟩
          have within : position < classes.length := by
            refine Nat.lt_of_le_of_ne (bound here) ?_
            intro final
            subst final
            rw [last, Option.some.injEq] at here
            subst here
            exact same named
          rw [earlier within] at here
          refine ⟨⟨found, here, named⟩, ?_⟩
          intro later other beyond there
          have before := (List.getElem?_eq_some_iff.mp there).1
          exact none later other beyond ((earlier before).trans there)

/-- A name stands for the last class that has it, whatever has been completed in between. -/
theorem position?_perform_eq_some_iff {operations : List Operation} {name : String}
    {position : Nat} :
    (perform operations).position? name = some position ↔
      LastNamed (registered operations) name position := by
  have declared := (declarations_perform operations).trans (declarations_ofList _).symm
  rw [position?_congr declared, position?_eq, ofList_classes, lastPosition?_eq_some_iff]

/-! ### Finality -/

theorem Run.eq_of_idle {first last : Registry} {order : List Nat} (run : Run first order last)
    (idle : ∀ position, first.awaits position = false) : last = first := by
  cases run with
  | done => rfl
  | @step _registry _final position _record _order next _rest =>
      have waits := next.awaiting
      rw [idle position] at waits
      cases waits

theorem resolve_resolve (registry : Registry) : registry.resolve.resolve = registry.resolve := by
  obtain ⟨_order, _run, idle⟩ := registry.resolve_run
  obtain ⟨_order, again, _idle⟩ := registry.resolve.resolve_run
  exact again.eq_of_idle idle

/-- One operation leaves a class with a chain as it is. -/
theorem apply_resolved {registry : Registry} {position : Nat} {record : ClassDoc}
    (here : registry.classes[position]? = some record) (resolved : record.isResolved = true)
    (operation : Operation) :
    (operation.apply registry).classes[position]? = some record := by
  cases operation with
  | register new =>
      have bound := (List.getElem?_eq_some_iff.mp here).1
      exact (List.getElem?_append_left bound).trans here
  | resolve =>
      obtain ⟨_order, run, _idle⟩ := registry.resolve_run
      have idle : registry.awaits position = false :=
        not_awaits_of_trivial here (by rw [resolved, Bool.true_or])
      exact (run.settled idle).trans here

theorem perform_resolved {operations : List Operation} {position : Nat} {record : ClassDoc}
    (here : (perform operations).classes[position]? = some record)
    (resolved : record.isResolved = true) (later : List Operation) :
    (perform (operations ++ later)).classes[position]? = some record := by
  induction later using List.reverseRecOn with
  | nil =>
      rw [List.append_nil]
      exact here
  | append_singleton later operation ih =>
      rw [← List.append_assoc, perform_concat]
      exact apply_resolved ih resolved operation

/-- After any operations, a name stands for the class that was registered last under it, and classes
stand in the order of their registrations with their declarations unchanged.  What has a chain
stays as it is under any further operations.  Resolution keeps the declarations of every registry,
and a second one in a row changes nothing. -/
theorem registry_history (operations later : List Operation) :
    (∀ name record, (perform operations).get? name = some record ↔
      ∃ position, LastNamed (registered operations) name position ∧
        (perform operations).classes[position]? = some record) ∧
    (perform operations).declarations = (registered operations).map ClassDoc.declaration ∧
    (∀ (position : Nat) (record : ClassDoc),
      (perform operations).classes[position]? = some record → record.chain.isSome = true →
      (perform (operations ++ later)).classes[position]? = some record) ∧
    ∀ registry : Registry, registry.resolve.declarations = registry.declarations ∧
      registry.resolve.resolve = registry.resolve := by
  refine ⟨?_, declarations_perform operations, ?_, fun registry =>
    ⟨declarations_resolve registry, resolve_resolve registry⟩⟩
  · intro name record
    unfold get?
    rw [Option.bind_eq_some_iff]
    simp only [position?_perform_eq_some_iff]
  · intro position record here chained
    exact perform_resolved here chained later

/-- A class is resolved, and then its base is registered again with another method. -/
def shadowing : List Operation :=
  [.register { ClassDoc.ofName "Child" 1 with baseNames := ["Base"] },
    .register { ClassDoc.ofName "Base" 2 with methods := [.ofName "run" 3] },
    .resolve,
    .register { ClassDoc.ofName "Base" 4 with methods := [.ofName "stop" 5] }]

theorem registry_history_shadowing :
    ∃ child base, (perform shadowing).classes[0]? = some child ∧
      child.chain = some ["Base"] ∧
      (perform (shadowing ++ [.resolve])).classes[0]? = some child ∧
      (perform shadowing).get? "Base" = some base ∧ base.line = 4 := by
  obtain ⟨recent, _order, final, _frame⟩ := registry_history shadowing [.resolve]
  have last : LastNamed (registered shadowing) "Base" 2 := by
    refine ⟨⟨_, rfl, by decide⟩, ?_⟩
    intro later other beyond there
    have bound := (List.getElem?_eq_some_iff.mp there).1
    have three : (registered shadowing).length = 3 := by decide
    omega
  have got := (recent "Base" _).mpr ⟨2, last, rfl⟩
  exact ⟨_, _, rfl, by decide, final 0 _ rfl (by decide), got, by decide⟩

end DocHarvest.Registry
