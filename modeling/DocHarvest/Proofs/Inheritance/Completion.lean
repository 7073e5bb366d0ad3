import Mathlib.Logic.Relation
import DocHarvest.Proofs.Inheritance.Gathering
import DocHarvest.Proofs.Inheritance.Lookup

/-!
Resolution as a run of single completions.

A step completes one class that awaits completion, from those of its bases that do not.  Whatever
the recursion does, its effect is a run of such steps, after which no class awaits completion.  A
base is passed over only if it leads back to the class itself.
-/

namespace DocHarvest.Registry

/-- Whether the class at a position has bases and is not complete. -/
def awaits (registry : Registry) (position : Nat) : Bool :=
  (registry.classes[position]?).any fun record => !(record.isResolved || record.hasTrivialBases)

/-- The bases from which a class takes over, with their records: those in the batch that do not
await completion. -/
def readyBases (registry : Registry) (bases : List String) : List (String × ClassDoc) :=
  bases.filterMap fun base =>
    (registry.position? base).bind fun source =>
      if registry.awaits source then none
      else (registry.classes[source]?).map fun record => (base, record)

def completion (registry : Registry) (record : ClassDoc) : ClassDoc :=
  (Heritage.ofBases record (registry.readyBases record.baseNames)).complete record

def advance (registry : Registry) (position : Nat) (record : ClassDoc) : Registry :=
  registry.completeAt position (.ofBases record (registry.readyBases record.baseNames))

/-- The class at one position declares the class at another one as a base. -/
def Extends (registry : Registry) (position source : Nat) : Prop :=
  ∃ record base, registry.classes[position]? = some record ∧ base ∈ record.baseNames ∧
    registry.position? base = some source

/-- The class at a position may be completed next: it awaits completion, and each of its bases that
does so too leads back to it. -/
structure Step (registry : Registry) (position : Nat) (record : ClassDoc) : Prop where
  here : registry.classes[position]? = some record
  awaiting : registry.awaits position = true
  passedOver : ∀ source, registry.Extends position source → registry.awaits source = true →
    Relation.ReflTransGen registry.Extends source position

/-- Complete classes one after the other, at the positions of a list. -/
inductive Run : Registry → List Nat → Registry → Prop where
  | done (registry : Registry) : Run registry [] registry
  | step {registry final : Registry} {position : Nat} {record : ClassDoc} {order : List Nat}
      (next : registry.Step position record)
      (rest : Run (registry.advance position record) order final) :
      Run registry (position :: order) final

theorem awaits_eq {registry : Registry} {position : Nat} {record : ClassDoc}
    (here : registry.classes[position]? = some record) :
    registry.awaits position = !(record.isResolved || record.hasTrivialBases) := by
  rw [awaits, here, Option.any_some]

theorem awaits_iff {registry : Registry} {position : Nat} :
    registry.awaits position = true ↔ ∃ record, registry.classes[position]? = some record ∧
      record.isResolved = false ∧ record.hasTrivialBases = false := by
  unfold awaits
  cases registry.classes[position]? with
  | none => simp
  | some record => simp

theorem Step.hasBases {registry : Registry} {position : Nat} {record : ClassDoc}
    (next : registry.Step position record) : record.hasTrivialBases = false := by
  obtain ⟨other, again, _unresolved, bases⟩ := awaits_iff.mp next.awaiting
  rw [next.here, Option.some.injEq] at again
  subst again
  exact bases

theorem not_awaits_of_trivial {registry : Registry} {position : Nat} {record : ClassDoc}
    (here : registry.classes[position]? = some record)
    (idle : (record.isResolved || record.hasTrivialBases) = true) :
    registry.awaits position = false := by
  rw [awaits_eq here, idle, Bool.not_true]

theorem awaits_congr {left right : Registry} {position : Nat}
    (same : left.classes[position]? = right.classes[position]?) :
    left.awaits position = right.awaits position := by
  unfold awaits
  rw [same]

theorem lt_size_of_awaits {registry : Registry} {position : Nat}
    (awaiting : registry.awaits position = true) : position < registry.size := by
  obtain ⟨record, here, _unresolved, _bases⟩ := awaits_iff.mp awaiting
  exact (List.getElem?_eq_some_iff.mp here).1

/-! ### One step -/

theorem advance_same {registry : Registry} {position : Nat} {record : ClassDoc}
    (here : registry.classes[position]? = some record) :
    (registry.advance position record).classes[position]? = some (registry.completion record) :=
  completeAt_same here _

theorem advance_other (registry : Registry) {position other : Nat} (record : ClassDoc)
    (apart : position ≠ other) :
    (registry.advance position record).classes[other]? = registry.classes[other]? :=
  completeAt_other registry _ apart

theorem declarations_advance (registry : Registry) (position : Nat) (record : ClassDoc) :
    (registry.advance position record).declarations = registry.declarations :=
  declarations_completeAt registry position _

theorem not_awaits_advance {registry : Registry} {position : Nat} {record : ClassDoc}
    (here : registry.classes[position]? = some record) :
    (registry.advance position record).awaits position = false := by
  have resolved : (registry.completion record).isResolved = true := rfl
  apply not_awaits_of_trivial (advance_same here)
  rw [resolved, Bool.true_or]

theorem extends_congr {left right : Registry} (same : left.declarations = right.declarations)
    {position source : Nat} (edge : left.Extends position source) :
    right.Extends position source := by
  obtain ⟨record, base, here, member, place⟩ := edge
  obtain ⟨other, there, equal⟩ := class_congr same here
  refine ⟨other, base, there, ?_, ?_⟩
  · rw [ClassDoc.baseNames_of_declaration equal]
    exact member
  · rw [← position?_congr same]
    exact place

theorem reaches_congr {left right : Registry} (same : left.declarations = right.declarations)
    {position source : Nat} (path : Relation.ReflTransGen left.Extends position source) :
    Relation.ReflTransGen right.Extends position source :=
  Relation.ReflTransGen.mono (fun _ _ edge => extends_congr same edge) _ _ path

/-! ### Runs -/

namespace Run

variable {first middle last : Registry} {order later : List Nat}

theorem append (run : Run first order middle) (next : Run middle later last) :
    Run first (order ++ later) last := by
  induction run with
  | done registry => exact next
  | step first _rest ih => exact .step first (ih next)

theorem declarations (run : Run first order last) : last.declarations = first.declarations := by
  induction run with
  | done registry => rfl
  | step next _rest ih => rw [ih, declarations_advance _ _ _]

theorem awaited (run : Run first order last) {position : Nat} (member : position ∈ order) :
    first.awaits position = true := by
  induction run with
  | done registry => cases member
  | @step registry _final chosen _record _order next _rest ih =>
      rcases List.mem_cons.mp member with same | remaining
      · subst same
        exact next.awaiting
      · by_cases same : chosen = position
        · subst same
          exact next.awaiting
        · rw [← ih remaining]
          exact awaits_congr (advance_other registry _ same).symm

theorem unchanged (run : Run first order last) {position : Nat} (absent : position ∉ order) :
    last.classes[position]? = first.classes[position]? := by
  induction run with
  | done registry => rfl
  | @step registry _final chosen _record _order _next _rest ih =>
      rw [List.mem_cons, not_or] at absent
      rw [ih absent.2, advance_other registry _ (fun same => absent.1 same.symm)]

theorem settled (run : Run first order last) {position : Nat}
    (idle : first.awaits position = false) :
    last.classes[position]? = first.classes[position]? := by
  apply run.unchanged
  intro member
  rw [run.awaited member] at idle
  cases idle

theorem completed (run : Run first order last) {position : Nat} {before : ClassDoc}
    (here : first.classes[position]? = some before)
    (awaiting : first.awaits position = true) (idle : last.awaits position = false) :
    ∃ bases, last.classes[position]? =
      some ((Heritage.ofBases before bases).complete before) := by
  induction run with
  | done registry =>
      rw [awaiting] at idle
      cases idle
  | @step registry _final chosen record _order next rest ih =>
      by_cases same : chosen = position
      · subst same
        have found := next.here
        rw [found, Option.some.injEq] at here
        subst here
        exact ⟨_, (rest.settled (not_awaits_advance found)).trans (advance_same found)⟩
      · have kept := advance_other registry record same
        exact ih (kept.trans here) ((awaits_congr kept).trans awaiting) idle

/-- What holds at first and is kept by every step that a run may take next holds at last. -/
theorem induct (run : Run first order last) (Holds : Registry → Prop) (start : Holds first)
    (keeps : ∀ before registry position record, Run first before registry →
      registry.Step position record → Holds registry →
      Holds (registry.advance position record)) : Holds last := by
  induction run with
  | done registry => exact start
  | @step registry _final position record _order next _rest ih =>
      apply ih (keeps [] registry position record (.done registry) next start)
      intro before other place found started later
      exact keeps (position :: before) other place found (.step next started) later

end Run

/-! ### The recursion -/

/-- The step that the recursion takes for one base. -/
def visitBase (depth : Nat) (opened : List Nat) (record : ClassDoc)
    (state : Registry × Heritage) (base : String) : Registry × Heritage :=
  match state.1.position? base with
  | none => state
  | some source =>
      if opened.contains source then state
      else
        let registry := resolveAt depth opened state.1 source
        match registry.classes[source]? with
        | none => (registry, state.2)
        | some found => (registry, state.2.addBase record base found)

theorem resolveAt_succ (depth : Nat) (opened : List Nat) (registry : Registry)
    (position : Nat) {record : ClassDoc} (here : registry.classes[position]? = some record) :
    resolveAt (depth + 1) opened registry position =
      if record.isResolved || record.hasTrivialBases || opened.contains position then registry
      else
        let state := record.baseNames.foldl (visitBase depth (position :: opened) record)
          (registry, Heritage.empty)
        state.1.completeAt position state.2 := by
  rw [resolveAt, here]
  rfl

/-- The positions under way when a call begins: distinct, awaiting completion, leading to the
position of the call, and few enough for the depth that is left. -/
structure Underway (registry : Registry) (depth : Nat) (opened : List Nat)
    (position : Nat) : Prop where
  enough : registry.size ≤ depth + opened.length
  distinct : opened.Nodup
  awaiting : ∀ other ∈ opened, registry.awaits other = true
  path : ∀ other ∈ opened, Relation.ReflTransGen registry.Extends other position

/-- Nothing is under way when the outermost loop calls. -/
theorem Underway.outermost {registry : Registry} {depth : Nat} (enough : registry.size ≤ depth)
    (position : Nat) : Underway registry depth [] position where
  enough := enough
  distinct := List.nodup_nil
  awaiting := fun _other member => (List.not_mem_nil member).elim
  path := fun _other member => (List.not_mem_nil member).elim

private theorem Underway.after {registry final : Registry} {depth position : Nat}
    {opened order : List Nat} (underway : Underway registry depth opened position)
    (run : Run registry order final) (apart : ∀ other ∈ order, other ∉ opened) :
    Underway final depth opened position where
  enough := by
    rw [size_congr run.declarations]
    exact underway.enough
  distinct := underway.distinct
  awaiting := by
    intro other member
    rw [← underway.awaiting other member]
    exact awaits_congr (run.unchanged fun completed => apart other completed member)
  path := fun other member => reaches_congr run.declarations.symm (underway.path other member)

private theorem Underway.next {registry : Registry} {depth position source : Nat}
    {opened : List Nat} (underway : Underway registry depth opened position)
    (edge : registry.Extends position source) : Underway registry depth opened source where
  enough := underway.enough
  distinct := underway.distinct
  awaiting := underway.awaiting
  path := fun other member => (underway.path other member).tail edge

private theorem Underway.push {registry : Registry} {depth position : Nat} {opened : List Nat}
    (underway : Underway registry (depth + 1) opened position)
    (awaiting : registry.awaits position = true) (fresh : position ∉ opened) :
    Underway registry depth (position :: opened) position where
  enough := by
    have bound := underway.enough
    rw [List.length_cons]
    omega
  distinct := List.nodup_cons.mpr ⟨fresh, underway.distinct⟩
  awaiting := by
    intro other member
    rcases List.mem_cons.mp member with same | earlier
    · subst same
      exact awaiting
    · exact underway.awaiting other earlier
  path := by
    intro other member
    rcases List.mem_cons.mp member with same | earlier
    · subst same
      exact .refl
    · exact underway.path other earlier

/-- What a call does: a run that keeps off the positions under way and settles its own. -/
private def Settles (registry : Registry) (opened : List Nat) (position : Nat)
    (final : Registry) : Prop :=
  ∃ order, Run registry order final ∧ (∀ other ∈ order, other ∉ opened) ∧
    (position ∉ opened → final.awaits position = false)

private theorem Settles.idle {registry : Registry} {opened : List Nat} {position : Nat}
    (idle : position ∉ opened → registry.awaits position = false) :
    Settles registry opened position registry :=
  ⟨[], .done registry, fun _other member => (List.not_mem_nil member).elim, idle⟩

/-- With no depth left, every class that awaits completion is under way. -/
private theorem Underway.exhausted {registry : Registry} {opened : List Nat} {position : Nat}
    (underway : Underway registry 0 opened position) (fresh : position ∉ opened) :
    registry.awaits position = false := by
  by_contra waits
  rw [Bool.not_eq_false] at waits
  have distinct : (position :: opened).Nodup := List.nodup_cons.mpr ⟨fresh, underway.distinct⟩
  have within : position :: opened ⊆ List.range registry.size := by
    intro other member
    rw [List.mem_range]
    rcases List.mem_cons.mp member with same | earlier
    · subst same
      exact lt_size_of_awaits waits
    · exact lt_size_of_awaits (underway.awaiting other earlier)
  have few := distinct.length_le_of_subset within
  have bound := underway.enough
  rw [List.length_cons, List.length_range] at few
  omega

theorem Underway.leaves {registry : Registry} {opened : List Nat} {position : Nat}
    {record : ClassDoc} (underway : Underway registry 0 opened position)
    (here : registry.classes[position]? = some record) :
    (record.isResolved || record.hasTrivialBases || opened.contains position) = true := by
  by_cases under : position ∈ opened
  · rw [List.contains_iff_mem.mpr under, Bool.or_true]
  · have idle := underway.exhausted under
    rw [awaits_eq here, Bool.not_eq_false'] at idle
    rw [idle, Bool.true_or]

/-- A call has passed its early return and is about its bases: its position is under way, and its
class is there as the call found it. -/
structure Visiting (registry : Registry) (depth : Nat) (opened : List Nat) (position : Nat)
    (record : ClassDoc) : Prop where
  here : registry.classes[position]? = some record
  member : position ∈ opened
  underway : Underway registry depth opened position

theorem Underway.enter {registry : Registry} {depth position : Nat} {opened : List Nat}
    {record : ClassDoc} (underway : Underway registry (depth + 1) opened position)
    (here : registry.classes[position]? = some record)
    (busy : (record.isResolved || record.hasTrivialBases) = false) (fresh : position ∉ opened) :
    Visiting registry depth (position :: opened) position record := by
  have awaiting : registry.awaits position = true := by
    rw [awaits_eq here, busy, Bool.not_false]
  exact ⟨here, List.mem_cons_self, underway.push awaiting fresh⟩

theorem Visiting.after {registry final : Registry} {depth position : Nat}
    {opened order : List Nat} {record : ClassDoc}
    (visiting : Visiting registry depth opened position record) (run : Run registry order final)
    (apart : ∀ other ∈ order, other ∉ opened) :
    Visiting final depth opened position record where
  here := by
    rw [run.unchanged fun completed => apart position completed visiting.member]
    exact visiting.here
  member := visiting.member
  underway := visiting.underway.after run apart

theorem Visiting.call {registry : Registry} {depth position source : Nat} {opened : List Nat}
    {record : ClassDoc} {base : String}
    (visiting : Visiting registry depth opened position record)
    (declared : base ∈ record.baseNames) (place : registry.position? base = some source) :
    Underway registry depth opened source :=
  visiting.underway.next ⟨record, base, visiting.here, declared, place⟩

theorem readyBases_cons (registry : Registry) (base : String) (rest : List String) :
    registry.readyBases (base :: rest) =
      registry.readyBases [base] ++ registry.readyBases rest := by
  unfold readyBases
  rw [← List.filterMap_append, List.singleton_append]

theorem readyBases_unknown {registry : Registry} {base : String}
    (unknown : registry.position? base = none) : registry.readyBases [base] = [] := by
  simp [readyBases, unknown]

theorem readyBases_waiting {registry : Registry} {base : String} {source : Nat}
    (place : registry.position? base = some source) (waits : registry.awaits source = true) :
    registry.readyBases [base] = [] := by
  simp [readyBases, place, waits]

theorem readyBases_ready {registry : Registry} {base : String} {source : Nat}
    {found : ClassDoc} (place : registry.position? base = some source)
    (idle : registry.awaits source = false) (there : registry.classes[source]? = some found) :
    registry.readyBases [base] = [(base, found)] := by
  simp [readyBases, place, idle, there]

private def Met (registry : Registry) (opened : List Nat) (base : String) : Prop :=
  ∀ source, registry.position? base = some source →
    source ∈ opened ∨ registry.awaits source = false

private theorem Met.after {registry final : Registry} {opened order : List Nat} {base : String}
    (met : Met registry opened base) (run : Run registry order final) :
    Met final opened base := by
  intro source place
  rw [position?_congr run.declarations] at place
  apply (met source place).imp_right
  intro idle
  exact (awaits_congr (run.settled idle)).trans idle

private theorem Met.readyBases_after {registry final : Registry} {depth position : Nat}
    {opened order : List Nat} {base : String} (met : Met registry opened base)
    (underway : Underway registry depth opened position) (run : Run registry order final)
    (apart : ∀ other ∈ order, other ∉ opened) :
    final.readyBases [base] = registry.readyBases [base] := by
  have same := position?_congr run.declarations base
  cases place : registry.position? base with
  | none => rw [readyBases_unknown place, readyBases_unknown (same.trans place)]
  | some source =>
      rcases met source place with under | idle
      · have waits := (underway.after run apart).awaiting source under
        rw [readyBases_waiting place (underway.awaiting source under),
          readyBases_waiting (same.trans place) waits]
      · obtain ⟨found, there, _named⟩ := class_of_position? place
        have kept := run.settled idle
        rw [readyBases_ready place idle there,
          readyBases_ready (same.trans place) ((awaits_congr kept).trans idle) (kept.trans there)]

private theorem visitBase_run {depth position : Nat} {opened : List Nat} {record : ClassDoc}
    (call : ∀ registry source, Underway registry depth opened source →
      Settles registry opened source (resolveAt depth opened registry source))
    {base : String} (declared : base ∈ record.baseNames) (registry : Registry)
    (heritage : Heritage) (visiting : Visiting registry depth opened position record) :
    ∃ order final, Run registry order final ∧ (∀ other ∈ order, other ∉ opened) ∧
      Met final opened base ∧
      visitBase depth opened record (registry, heritage) base =
        (final, (final.readyBases [base]).foldl
          (fun heritage source => heritage.addBase record source.1 source.2) heritage) := by
  cases place : registry.position? base with
  | none =>
      refine ⟨[], registry, .done registry, fun _other none => (List.not_mem_nil none).elim, ?_, ?_⟩
      · intro source found
        rw [place] at found
        cases found
      · rw [readyBases_unknown place]
        simp [visitBase, place]
  | some source =>
      by_cases under : source ∈ opened
      · refine ⟨[], registry, .done registry, fun _other none => (List.not_mem_nil none).elim,
          ?_, ?_⟩
        · intro other found
          rw [place, Option.some.injEq] at found
          subst found
          exact Or.inl under
        · rw [readyBases_waiting place (visiting.underway.awaiting source under)]
          simp [visitBase, place, under]
      · obtain ⟨order, run, apart, settled⟩ := call registry source (visiting.call declared place)
        have known := (position?_congr run.declarations base).trans place
        obtain ⟨found, there, _named⟩ := class_of_position? known
        refine ⟨order, resolveAt depth opened registry source, run, apart, ?_, ?_⟩
        · intro other again
          rw [known, Option.some.injEq] at again
          subst again
          exact Or.inr (settled under)
        · rw [readyBases_ready known (settled under) there]
          simp [visitBase, place, under, there]

/-- The bases of a class are visited by a run, and gathering from them as they are visited is
gathering from those that are ready in the end. -/
private theorem visitBases_run {depth position : Nat} {opened : List Nat} {record : ClassDoc}
    (call : ∀ registry source, Underway registry depth opened source →
      Settles registry opened source (resolveAt depth opened registry source))
    (bases : List String) (declared : ∀ base ∈ bases, base ∈ record.baseNames)
    (registry : Registry) (heritage : Heritage)
    (visiting : Visiting registry depth opened position record) :
    ∃ order final, Run registry order final ∧ (∀ other ∈ order, other ∉ opened) ∧
      (∀ base ∈ bases, Met final opened base) ∧
      bases.foldl (visitBase depth opened record) (registry, heritage) =
        (final, (final.readyBases bases).foldl
          (fun heritage source => heritage.addBase record source.1 source.2) heritage) := by
  induction bases generalizing registry heritage with
  | nil =>
      exact ⟨[], registry, .done registry, fun _other none => (List.not_mem_nil none).elim,
        fun _base none => (List.not_mem_nil none).elim, rfl⟩
  | cons base rest ih =>
      rw [List.forall_mem_cons] at declared
      obtain ⟨before, middle, run, apart, met, visited⟩ :=
        visitBase_run call declared.1 registry heritage visiting
      have inside := visiting.after run apart
      obtain ⟨after, final, next, clear, others, state⟩ := ih declared.2 middle
        ((middle.readyBases [base]).foldl
          (fun heritage source => heritage.addBase record source.1 source.2) heritage) inside
      refine ⟨before ++ after, final, run.append next, List.forall_mem_append.mpr ⟨apart, clear⟩,
        List.forall_mem_cons.mpr ⟨met.after next, others⟩, ?_⟩
      rw [List.foldl_cons, visited, state, readyBases_cons final base rest, List.foldl_append,
        met.readyBases_after inside.underway next clear]

private theorem resolveAt_settles (depth : Nat) (opened : List Nat) (registry : Registry)
    (position : Nat) (underway : Underway registry depth opened position) :
    Settles registry opened position (resolveAt depth opened registry position) := by
  induction depth generalizing opened registry position with
  | zero =>
      rw [resolveAt]
      exact .idle underway.exhausted
  | succ depth ih =>
      cases here : registry.classes[position]? with
      | none =>
          have same : resolveAt (depth + 1) opened registry position = registry := by
            rw [resolveAt, here]
          rw [same]
          exact .idle fun _fresh => by simp [awaits, here]
      | some record =>
          rw [resolveAt_succ depth opened registry position here]
          split
          · rename_i leave
            apply Settles.idle
            intro fresh
            have unopened : opened.contains position = false :=
              Bool.eq_false_iff.mpr fun known => fresh (List.contains_iff_mem.mp known)
            rw [unopened, Bool.or_false] at leave
            exact not_awaits_of_trivial here leave
          · rename_i enter
            rw [Bool.or_eq_true, not_or, Bool.not_eq_true, List.contains_iff_mem] at enter
            obtain ⟨busy, fresh⟩ := enter
            have visiting := underway.enter here busy fresh
            obtain ⟨order, final, run, apart, met, state⟩ := visitBases_run
              (fun other source => ih (position :: opened) other source)
              record.baseNames (fun _base present => present) registry Heritage.empty visiting
            have done := visiting.after run apart
            have still := done.here
            have waits := done.underway.awaiting position done.member
            rw [state]
            change Settles registry opened position (final.advance position record)
            refine ⟨order ++ [position], run.append (.step ⟨still, waits, ?_⟩ (.done _)), ?_, ?_⟩
            · intro source edge waiting
              obtain ⟨other, base, found, member, place⟩ := edge
              rw [still, Option.some.injEq] at found
              subst found
              rcases met base member source place with under | idle
              · exact done.underway.path source under
              · rw [waiting] at idle
                cases idle
            · intro other completed
              rcases List.mem_append.mp completed with early | last
              · exact fun under => apart other early (List.mem_cons_of_mem position under)
              · rw [List.mem_singleton] at last
                subst last
                exact fresh
            · intro _fresh
              exact not_awaits_advance still

theorem declarations_resolveAt {registry : Registry} {depth position : Nat} {opened : List Nat}
    (underway : Underway registry depth opened position) :
    (resolveAt depth opened registry position).declarations = registry.declarations := by
  obtain ⟨_order, run, _apart, _settled⟩ := resolveAt_settles depth opened registry position underway
  exact run.declarations

section Visiting

variable {registry : Registry} {depth position : Nat} {opened : List Nat} {record : ClassDoc}

theorem Visiting.visit (visiting : Visiting registry depth opened position record)
    (heritage : Heritage) {base : String} (declared : base ∈ record.baseNames) :
    Visiting (visitBase depth opened record (registry, heritage) base).1 depth opened position
        record ∧
      (visitBase depth opened record (registry, heritage) base).1.declarations =
        registry.declarations := by
  obtain ⟨_order, _final, run, apart, _met, visited⟩ :=
    visitBase_run (resolveAt_settles depth opened) declared registry heritage visiting
  rw [visited]
  exact ⟨visiting.after run apart, run.declarations⟩

theorem Visiting.visits (visiting : Visiting registry depth opened position record)
    (heritage : Heritage) (bases : List String) (declared : ∀ base ∈ bases, base ∈ record.baseNames) :
    Visiting (bases.foldl (visitBase depth opened record) (registry, heritage)).1 depth
      opened position record := by
  obtain ⟨_order, _final, run, apart, _met, visited⟩ :=
    visitBases_run (resolveAt_settles depth opened) bases declared registry heritage visiting
  rw [visited]
  exact visiting.after run apart

end Visiting

/-- Resolution is a run of completions after which no class awaits completion. -/
theorem resolve_run (registry : Registry) :
    ∃ order, Run registry order registry.resolve ∧
      ∀ position, registry.resolve.awaits position = false := by
  have visit (positions : List Nat) (current : Registry) (before : List Nat)
      (started : Run registry before current) :
      ∃ order, Run registry order (positions.foldl (resolveAt registry.size []) current) ∧
        ∀ position, position ∈ positions ∨ current.awaits position = false →
          (positions.foldl (resolveAt registry.size []) current).awaits position = false := by
    induction positions generalizing current before with
    | nil =>
        refine ⟨before, started, ?_⟩
        intro position either
        exact either.resolve_left List.not_mem_nil
    | cons position rest ih =>
        have enough : current.size ≤ registry.size :=
          Nat.le_of_eq (size_congr started.declarations)
        obtain ⟨order, run, _apart, settled⟩ :=
          resolveAt_settles registry.size [] current position (.outermost enough position)
        obtain ⟨whole, finished, idle⟩ := ih _ _ (started.append run)
        refine ⟨whole, finished, ?_⟩
        intro other either
        apply idle
        rcases either with member | already
        · rcases List.mem_cons.mp member with same | later
          · subst same
            exact Or.inr (settled List.not_mem_nil)
          · exact Or.inl later
        · exact Or.inr ((awaits_congr (run.settled already)).trans already)
  obtain ⟨order, run, idle⟩ := visit (List.range registry.size) registry [] (.done registry)
  refine ⟨order, run, ?_⟩
  intro position
  apply idle
  by_cases within : position < registry.size
  · exact Or.inl (List.mem_range.mpr within)
  · right
    by_contra waits
    rw [Bool.not_eq_false] at waits
    exact within (lt_size_of_awaits waits)

theorem declarations_resolve (registry : Registry) :
    registry.resolve.declarations = registry.declarations := by
  obtain ⟨_order, run, _idle⟩ := registry.resolve_run
  exact run.declarations

end DocHarvest.Registry
