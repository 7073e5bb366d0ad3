import Mathlib.Data.Finset.Card
import DocHarvest.Proofs.Inheritance.Completion

/-!
Resolution with its calls on an explicit stack.

The machine here has no bound on the depth of its calls.  It keeps the set of positions under way
as a state of its own, adds to it when a call passes its early return, removes from it when the
call ends, and comes to a halt if a position is out of range.  It never does: it ends with the
registry that `resolve` gives, and on the way no more calls are active than there are classes.
-/

namespace DocHarvest.Registry

/-- What a call has still to do about one of its bases. -/
inductive Errand where
  /-- Look the base up and, if need be, call for its completion. -/
  | visit (base : String)
  /-- Take over what the base at a position has, after the call for it. -/
  | takeOver (base : String) (source : Nat)

/-- A call that has passed its early return. -/
structure Frame where
  position : Nat
  /-- The class as the call found it. -/
  record : ClassDoc
  heritage : Heritage
  errands : List Errand

/-- Resolution between two of its steps. -/
structure Machine where
  registry : Registry
  opened : Finset Nat
  /-- The active calls, innermost first. -/
  frames : List Frame
  /-- The position of a call that is about to begin. -/
  calling : Option Nat
  /-- The positions that the outermost loop has not come to. -/
  pending : List Nat

namespace Machine

def start (registry : Registry) : Machine where
  registry := registry
  opened := ∅
  frames := []
  calling := none
  pending := List.range registry.size

/-- Begin a call: return early, or open the position and set out for the bases. -/
def enter (machine : Machine) (position : Nat) : Option Machine :=
  (machine.registry.classes[position]?).map fun record =>
    if record.isResolved || record.hasTrivialBases || position ∈ machine.opened then
      { machine with calling := none }
    else
      { machine with
        opened := insert position machine.opened
        frames := ⟨position, record, .empty, record.baseNames.map .visit⟩ :: machine.frames
        calling := none }

/-- Go on with the innermost call: its next errand, or its end. -/
def proceed (machine : Machine) (frame : Frame) (outer : List Frame) : Option Machine :=
  match frame.errands with
  | [] =>
      (machine.registry.classes[frame.position]?).map fun _record =>
        { machine with
          registry := machine.registry.completeAt frame.position frame.heritage
          opened := machine.opened.erase frame.position
          frames := outer }
  | .visit base :: errands =>
      match machine.registry.position? base with
      | none => some { machine with frames := { frame with errands } :: outer }
      | some source =>
          if source = frame.position ∨ source ∈ machine.opened then
            some { machine with frames := { frame with errands } :: outer }
          else
            some
              { machine with
                frames := { frame with errands := .takeOver base source :: errands } :: outer
                calling := some source }
  | .takeOver base source :: errands =>
      (machine.registry.classes[source]?).map fun found =>
        { machine with
          frames :=
            { frame with
              heritage := frame.heritage.addBase frame.record base found
              errands } :: outer }

/-- One step.  There is none if all is done, or if a position is out of range. -/
def step (machine : Machine) : Option Machine :=
  match machine.calling, machine.frames, machine.pending with
  | some position, _, _ => machine.enter position
  | none, frame :: outer, _ => machine.proceed frame outer
  | none, [], position :: later =>
      some { machine with calling := some position, pending := later }
  | none, [], [] => none

def Ended (machine : Machine) : Prop :=
  machine.calling = none ∧ machine.frames = [] ∧ machine.pending = []

def Reaches : Machine → Machine → Prop :=
  Relation.ReflTransGen fun machine next => machine.step = some next

def stack (machine : Machine) : List Nat :=
  machine.frames.map Frame.position

theorem Reaches.total {first left right : Machine} (toLeft : first.Reaches left)
    (toRight : first.Reaches right) : left.Reaches right ∨ right.Reaches left := by
  apply Relation.ReflTransGen.total_of_right_unique _ toLeft toRight
  intro machine next other one two
  rw [one, Option.some.injEq] at two
  exact two

theorem Reaches.of_ended {machine next : Machine} (stopped : machine.step = none)
    (path : machine.Reaches next) : next = machine := by
  cases path.cases_head with
  | inl same => exact same.symm
  | inr later =>
      obtain ⟨second, first, _rest⟩ := later
      rw [stopped] at first
      cases first

/-! ### The set under way -/

/-- A step leaves the active calls and the positions under way alone, adds one that is new to
both, or removes the innermost. -/
inductive Shift (machine next : Machine) : Prop where
  | stay (stack : next.stack = machine.stack) (opened : next.opened = machine.opened)
  | push (position : Nat) (fresh : position ∉ machine.opened)
      (stack : next.stack = position :: machine.stack)
      (opened : next.opened = insert position machine.opened)
  | pop (position : Nat) (stack : machine.stack = position :: next.stack)
      (opened : next.opened = machine.opened.erase position)

private theorem enter_shift {machine next : Machine} {position : Nat}
    (entered : machine.enter position = some next) : Shift machine next := by
  unfold enter at entered
  obtain ⟨record, _here, same⟩ := Option.map_eq_some_iff.mp entered
  subst same
  split
  · exact .stay rfl rfl
  · rename_i passed
    refine .push position ?_ rfl rfl
    intro member
    exact passed (by simp [member])

private theorem proceed_shift {machine next : Machine} {frame : Frame} {outer : List Frame}
    (inside : machine.frames = frame :: outer)
    (proceeded : machine.proceed frame outer = some next) : Shift machine next := by
  have stack : machine.stack = frame.position :: outer.map Frame.position := by
    unfold Machine.stack
    rw [inside, List.map_cons]
  unfold proceed at proceeded
  split at proceeded
  · obtain ⟨record, _here, same⟩ := Option.map_eq_some_iff.mp proceeded
    subst same
    exact .pop frame.position stack rfl
  · split at proceeded
    · cases proceeded
      exact .stay stack.symm rfl
    · split at proceeded
      · cases proceeded
        exact .stay stack.symm rfl
      · cases proceeded
        exact .stay stack.symm rfl
  · obtain ⟨found, _there, same⟩ := Option.map_eq_some_iff.mp proceeded
    subst same
    exact .stay stack.symm rfl

theorem step_shift {machine next : Machine} (stepped : machine.step = some next) :
    Shift machine next := by
  unfold step at stepped
  split at stepped
  · exact enter_shift stepped
  · rename_i inside
    exact proceed_shift inside stepped
  · cases stepped
    exact .stay rfl rfl
  · cases stepped

/-- The positions under way are those of the active calls, and no position is active twice. -/
structure Tracked (machine : Machine) : Prop where
  distinct : machine.stack.Nodup
  opened : machine.opened = machine.stack.toFinset

theorem Tracked.step {machine next : Machine} (tracked : machine.Tracked)
    (stepped : machine.step = some next) : next.Tracked := by
  have opened := tracked.opened
  have distinct := tracked.distinct
  cases step_shift stepped with
  | stay stack same =>
      constructor
      · rw [stack]
        exact distinct
      · rw [stack, same]
        exact opened
  | push position fresh stack added =>
      constructor
      · rw [stack, List.nodup_cons]
        refine ⟨?_, distinct⟩
        intro member
        rw [opened, List.mem_toFinset] at fresh
        exact fresh member
      · rw [stack, added, opened, List.toFinset_cons]
  | pop position stack removed =>
      rw [stack, List.nodup_cons] at distinct
      constructor
      · exact distinct.2
      · rw [removed, opened, stack, List.toFinset_cons]
        apply Finset.erase_insert
        rw [List.mem_toFinset]
        exact distinct.1

/-! ### Positions in range -/

/-- Every position that the machine holds is one of the registry. -/
structure Within (count : Nat) (machine : Machine) : Prop where
  size : machine.registry.size = count
  active : ∀ frame ∈ machine.frames, frame.position < count
  sources : ∀ frame ∈ machine.frames, ∀ base source,
    .takeOver base source ∈ frame.errands → source < count
  calling : ∀ position, machine.calling = some position → position < count
  pending : ∀ position ∈ machine.pending, position < count

variable {count : Nat} {machine next : Machine}

theorem Within.start (registry : Registry) : Within registry.size (start registry) where
  size := rfl
  active := fun _frame member => (List.not_mem_nil member).elim
  sources := fun _frame member => (List.not_mem_nil member).elim
  calling := fun _position none => by cases none
  pending := fun _position member => List.mem_range.mp member

private theorem Within.enter (within : Within count machine) {position : Nat}
    (entered : machine.enter position = some next) : Within count next := by
  unfold Machine.enter at entered
  obtain ⟨record, here, same⟩ := Option.map_eq_some_iff.mp entered
  subst same
  split
  · refine ⟨within.size, within.active, within.sources, ?_, within.pending⟩
    intro other called
    cases called
  · refine ⟨within.size, ?_, ?_, ?_, within.pending⟩
    · intro frame member
      rcases List.mem_cons.mp member with new | old
      · subst new
        rw [← within.size]
        exact (List.getElem?_eq_some_iff.mp here).1
      · exact within.active frame old
    · intro frame member base source errand
      rcases List.mem_cons.mp member with new | old
      · subst new
        obtain ⟨_name, _listed, visit⟩ := List.mem_map.mp errand
        cases visit
      · exact within.sources frame old base source errand
    · intro other called
      cases called

/-- The innermost frame may be changed as long as it keeps its position and takes over from
positions in range. -/
private theorem Within.reframe (within : Within count machine) {frame : Frame}
    {outer : List Frame} (inside : machine.frames = frame :: outer) {record : ClassDoc}
    {heritage : Heritage} {errands : List Errand}
    (sources : ∀ base source, .takeOver base source ∈ errands → source < count)
    {calling : Option Nat} (called : ∀ source, calling = some source → source < count) :
    Within count
      { machine with frames := ⟨frame.position, record, heritage, errands⟩ :: outer, calling } := by
  have outward (other : Frame) (member : other ∈ outer) : other ∈ machine.frames := by
    rw [inside]
    exact List.mem_cons_of_mem frame member
  refine ⟨within.size, ?_, ?_, called, within.pending⟩
  · intro other member
    rcases List.mem_cons.mp member with new | old
    · subst new
      apply within.active frame
      rw [inside]
      exact List.mem_cons_self
    · exact within.active other (outward other old)
  · intro other member
    rcases List.mem_cons.mp member with new | old
    · subst new
      exact sources
    · exact within.sources other (outward other old)

private theorem Within.proceed (within : Within count machine) {frame : Frame}
    {outer : List Frame} (inside : machine.frames = frame :: outer)
    (proceeded : machine.proceed frame outer = some next) : Within count next := by
  have mine := within.sources frame (by rw [inside]; exact List.mem_cons_self)
  have outward (other : Frame) (member : other ∈ outer) : other ∈ machine.frames := by
    rw [inside]
    exact List.mem_cons_of_mem frame member
  unfold Machine.proceed at proceeded
  split at proceeded
  · obtain ⟨record, _here, same⟩ := Option.map_eq_some_iff.mp proceeded
    subst same
    refine ⟨?_, fun other member => within.active other (outward other member),
      fun other member => within.sources other (outward other member), within.calling,
      within.pending⟩
    exact (size_completeAt _ _ _).trans within.size
  · rename_i base errands todo
    have fewer (name : String) (source : Nat) (later : .takeOver name source ∈ errands) :
        source < count := by
      apply mine name source
      rw [todo]
      exact List.mem_cons_of_mem _ later
    split at proceeded
    · cases proceeded
      exact within.reframe inside fewer within.calling
    · rename_i source place
      split at proceeded
      · cases proceeded
        exact within.reframe inside fewer within.calling
      · cases proceeded
        have bound := lt_size_of_position? place
        rw [within.size] at bound
        apply within.reframe inside
        · intro name other errand
          rcases List.mem_cons.mp errand with new | old
          · cases new
            exact bound
          · exact fewer name other old
        · intro other called
          cases called
          exact bound
  · rename_i base source errands todo
    obtain ⟨found, _there, same⟩ := Option.map_eq_some_iff.mp proceeded
    subst same
    refine within.reframe inside ?_ within.calling
    intro name other later
    apply mine name other
    rw [todo]
    exact List.mem_cons_of_mem _ later

theorem Within.step (within : Within count machine) (stepped : machine.step = some next) :
    Within count next := by
  unfold Machine.step at stepped
  split at stepped
  · exact within.enter stepped
  · rename_i inside
    exact within.proceed inside stepped
  · rename_i position later _idle _outside remaining
    cases stepped
    have listed := within.pending
    rw [remaining, List.forall_mem_cons] at listed
    refine ⟨within.size, within.active, within.sources, ?_, listed.2⟩
    intro other called
    cases called
    exact listed.1
  · cases stepped

/-- A machine whose positions are in range stops only when all is done. -/
theorem Within.step_eq_none (within : Within count machine) :
    machine.step = none ↔ machine.Ended := by
  have found {position : Nat} (bound : position < count) :
      ∃ record, machine.registry.classes[position]? = some record := by
    rw [← within.size] at bound
    exact ⟨_, List.getElem?_eq_getElem bound⟩
  constructor
  · intro stopped
    unfold Machine.step at stopped
    split at stopped
    · rename_i position calling
      obtain ⟨record, here⟩ := found (within.calling position calling)
      simp [Machine.enter, here] at stopped
    · rename_i frame outer _idle inside
      have inner : frame ∈ machine.frames := by
        rw [inside]
        exact List.mem_cons_self
      unfold Machine.proceed at stopped
      split at stopped
      · obtain ⟨record, here⟩ := found (within.active frame inner)
        simp [here] at stopped
      · split at stopped
        · cases stopped
        · split at stopped
          · cases stopped
          · cases stopped
      · rename_i base source errands todo
        have next : .takeOver base source ∈ frame.errands := by
          rw [todo]
          exact List.mem_cons_self
        obtain ⟨record, there⟩ := found (within.sources frame inner base source next)
        simp [there] at stopped
    · cases stopped
    · rename_i idle outside done
      exact ⟨idle, outside, done⟩
  · rintro ⟨idle, outside, done⟩
    unfold Machine.step
    rw [idle, outside, done]

/-! ### The recursion as a path of the machine -/

theorem Reaches.first {machine next last : Machine} (stepped : machine.step = some next)
    (path : next.Reaches last) : machine.Reaches last :=
  Relation.ReflTransGen.head stepped path

private theorem visit_reaches {depth position : Nat} {opened : List Nat} {record : ClassDoc}
    {pending : List Nat} (call : ∀ registry source frames, Underway registry depth opened source →
      source < registry.size → frames.map Frame.position = opened →
      Reaches ⟨registry, opened.toFinset, frames, some source, pending⟩
        ⟨resolveAt depth opened registry source, opened.toFinset, frames, none, pending⟩)
    (registry : Registry) (heritage : Heritage) (frames : List Frame)
    (stack : position :: frames.map Frame.position = opened)
    (visiting : Visiting registry depth opened position record) {base : String}
    (declared : base ∈ record.baseNames) (errands : List Errand) :
    Reaches
      ⟨registry, opened.toFinset, ⟨position, record, heritage, .visit base :: errands⟩ :: frames,
        none, pending⟩
      ⟨(visitBase depth opened record (registry, heritage) base).1, opened.toFinset,
        ⟨position, record, (visitBase depth opened record (registry, heritage) base).2, errands⟩ ::
          frames, none, pending⟩ := by
  cases place : registry.position? base with
  | none =>
      apply Reaches.first _ .refl
      simp [step, proceed, visitBase, place]
  | some source =>
      by_cases under : source ∈ opened
      · apply Reaches.first _ .refl
        simp [step, proceed, visitBase, place, under]
      · have apart : source ≠ position := by
          intro same
          rw [same] at under
          exact under visiting.member
        have underway := visiting.call declared place
        obtain ⟨_found, known, _named⟩ := class_of_position? place
        obtain ⟨found, there, _same⟩ := class_congr (declarations_resolveAt underway).symm known
        apply Reaches.first
        · simp only [step, proceed, place]
          rw [if_neg]
          simp [under, apart]
        · refine Relation.ReflTransGen.trans
            (call registry source _ underway (lt_size_of_position? place) stack) ?_
          apply Reaches.first _ .refl
          simp [step, proceed, visitBase, place, under, there]

private theorem visits_reach {depth position : Nat} {opened : List Nat} {record : ClassDoc}
    {pending : List Nat} (call : ∀ registry source frames, Underway registry depth opened source →
      source < registry.size → frames.map Frame.position = opened →
      Reaches ⟨registry, opened.toFinset, frames, some source, pending⟩
        ⟨resolveAt depth opened registry source, opened.toFinset, frames, none, pending⟩)
    (bases : List String) (declared : ∀ base ∈ bases, base ∈ record.baseNames)
    (registry : Registry) (heritage : Heritage) (frames : List Frame)
    (stack : position :: frames.map Frame.position = opened)
    (visiting : Visiting registry depth opened position record) :
    Reaches
      ⟨registry, opened.toFinset, ⟨position, record, heritage, bases.map .visit⟩ :: frames, none,
        pending⟩
      ⟨(bases.foldl (visitBase depth opened record) (registry, heritage)).1, opened.toFinset,
        ⟨position, record, (bases.foldl (visitBase depth opened record) (registry, heritage)).2,
          []⟩ :: frames, none, pending⟩ := by
  induction bases generalizing registry heritage with
  | nil => exact .refl
  | cons base rest ih =>
      rw [List.forall_mem_cons] at declared
      have first := visit_reaches call registry heritage frames stack visiting declared.1
        (rest.map .visit)
      exact first.trans (ih declared.2 _ _ (visiting.visit heritage declared.1).1)

private theorem decide_mem_toFinset (opened : List Nat) (position : Nat) :
    decide (position ∈ opened.toFinset) = opened.contains position := by
  simp

/-- The recursion is a path of the machine, from the beginning of a call to its return. -/
theorem call_reaches (depth : Nat) (opened : List Nat) (registry : Registry) (position : Nat)
    (frames : List Frame) (pending : List Nat)
    (underway : Underway registry depth opened position) (bound : position < registry.size)
    (stack : frames.map Frame.position = opened) :
    Reaches ⟨registry, opened.toFinset, frames, some position, pending⟩
      ⟨resolveAt depth opened registry position, opened.toFinset, frames, none, pending⟩ := by
  induction depth generalizing opened registry position frames with
  | zero =>
      obtain ⟨record, here⟩ : ∃ record, registry.classes[position]? = some record :=
        ⟨_, List.getElem?_eq_getElem bound⟩
      -- the machine knows of no depth, and returns early for a reason of its own
      apply Reaches.first _ .refl
      simp only [step, enter, here, Option.map_some, decide_mem_toFinset, underway.leaves here,
        if_true]
      rfl
  | succ depth ih =>
      obtain ⟨record, here⟩ : ∃ record, registry.classes[position]? = some record :=
        ⟨_, List.getElem?_eq_getElem bound⟩
      rw [resolveAt_succ depth opened registry position here]
      cases leave : record.isResolved || record.hasTrivialBases || opened.contains position with
      | true =>
          apply Reaches.first _ .refl
          simp only [step, enter, here, Option.map_some, decide_mem_toFinset, leave, if_true]
      | false =>
          have passed := leave
          rw [Bool.or_eq_false_iff, Bool.eq_false_iff (b := opened.contains position), ne_eq,
            List.contains_iff_mem] at passed
          obtain ⟨busy, fresh⟩ := passed
          have visiting := underway.enter here busy fresh
          have still := (visiting.visits .empty record.baseNames fun _base present => present).here
          have path := visits_reach (ih (position :: opened)) record.baseNames
            (fun _base present => present) registry .empty frames (by rw [stack]) visiting
          apply Reaches.first
          · simp only [step, enter, here, Option.map_some, decide_mem_toFinset, leave]
            rfl
          · rw [List.toFinset_cons] at path
            refine path.trans (Reaches.first ?_ .refl)
            simp [step, proceed, still, fresh]

private theorem loop_reaches (positions : List Nat) (count : Nat) (registry : Registry)
    (size : registry.size = count) (bound : ∀ position ∈ positions, position < count) :
    Reaches ⟨registry, ∅, [], none, positions⟩
      ⟨positions.foldl (resolveAt count []) registry, ∅, [], none, []⟩ := by
  induction positions generalizing registry with
  | nil => exact .refl
  | cons position rest ih =>
      rw [List.forall_mem_cons] at bound
      have underway : Underway registry count [] position := .outermost (Nat.le_of_eq size) position
      have called := call_reaches count [] registry position [] rest underway
        (by rw [size]; exact bound.1) rfl
      have kept : (resolveAt count [] registry position).size = count := by
        rw [size_congr (declarations_resolveAt underway), size]
      apply Reaches.first
      · rfl
      · exact called.trans (ih _ kept bound.2)

theorem start_reaches (registry : Registry) :
    (start registry).Reaches ⟨registry.resolve, ∅, [], none, []⟩ :=
  loop_reaches (List.range registry.size) registry.size registry rfl
    fun _position member => List.mem_range.mp member

theorem Reaches.within {registry : Registry} (path : (start registry).Reaches machine) :
    Within registry.size machine := by
  induction path with
  | refl => exact .start registry
  | tail _path stepped ih => exact ih.step stepped

theorem Reaches.tracked {registry : Registry} (path : (start registry).Reaches machine) :
    machine.Tracked := by
  induction path with
  | refl => exact ⟨List.nodup_nil, rfl⟩
  | tail _path stepped ih => exact ih.step stepped

theorem Tracked.card_opened (tracked : machine.Tracked) :
    machine.opened.card = machine.frames.length := by
  rw [tracked.opened, List.toFinset_card_of_nodup tracked.distinct, stack, List.length_map]

theorem Reaches.opened_lt {registry : Registry} (path : (start registry).Reaches machine)
    {position : Nat} (member : position ∈ machine.opened) : position < registry.size := by
  rw [path.tracked.opened, List.mem_toFinset] at member
  obtain ⟨frame, active, same⟩ := List.mem_map.mp member
  rw [← same]
  exact path.within.active frame active

theorem Reaches.active_le {registry : Registry} (path : (start registry).Reaches machine) :
    machine.frames.length ≤ registry.size := by
  have few : machine.opened ⊆ Finset.range registry.size := by
    intro position member
    rw [Finset.mem_range]
    exact path.opened_lt member
  have bound := Finset.card_le_card few
  rw [Finset.card_range, path.tracked.card_opened] at bound
  exact bound

/-- A call that passes its early return opens a position that was not under way. -/
theorem opened_of_deeper (stepped : machine.step = some next)
    (deeper : machine.frames.length < next.frames.length) :
    ∃ position, position ∉ machine.opened ∧ next.opened = insert position machine.opened := by
  have lengths (other : Machine) : other.stack.length = other.frames.length := List.length_map _
  cases step_shift stepped with
  | stay stack _same =>
      have same := congrArg List.length stack
      rw [lengths, lengths] at same
      omega
  | push position fresh _stack added => exact ⟨position, fresh, added⟩
  | pop position stack _removed =>
      have fewer := congrArg List.length stack
      rw [List.length_cons, lengths, lengths] at fewer
      omega

end Machine

/-- The calls of resolution end, with every position in range, no more active calls than classes,
and nothing under way between the calls of the outermost loop.  Then no class with bases is without
a chain, and a class that got its chain has got its inherited methods. -/
theorem resolve_terminates (registry : Registry) :
    (∃ last : Machine, last.Ended ∧ last.registry = registry.resolve ∧
      ∀ machine, (Machine.start registry).Reaches machine → machine.Reaches last) ∧
    (∀ machine, (Machine.start registry).Reaches machine →
      (machine.step = none ↔ machine.Ended) ∧
      (∀ position ∈ machine.opened, position < registry.size) ∧
      machine.opened.card = machine.frames.length ∧
      machine.frames.length ≤ registry.size ∧
      (machine.frames = [] → machine.opened = ∅) ∧
      ∀ next, machine.step = some next → machine.frames.length < next.frames.length →
        ∃ position, position ∉ machine.opened ∧
          next.opened = insert position machine.opened) ∧
    ∀ (position : Nat) (before : ClassDoc), registry.classes[position]? = some before →
      ∃ after : ClassDoc, registry.resolve.classes[position]? = some after ∧
        (after.hasTrivialBases = true ∨ after.chain.isSome = true) ∧
        (before.chain = none → after.chain.isSome = true → after.inherited.isSome = true) := by
  have whole := Machine.start_reaches registry
  refine ⟨⟨⟨registry.resolve, ∅, [], none, []⟩, ⟨rfl, rfl, rfl⟩, rfl, ?_⟩, ?_, ?_⟩
  · intro machine path
    rcases path.total whole with onward | back
    · exact onward
    · rw [back.of_ended rfl]
      exact .refl
  · intro machine path
    have tracked := path.tracked
    refine ⟨path.within.step_eq_none, fun position => path.opened_lt, tracked.card_opened,
      path.active_le, ?_, fun next => Machine.opened_of_deeper⟩
    intro none
    rw [← Finset.card_eq_zero, tracked.card_opened, none, List.length_nil]
  · intro position before here
    obtain ⟨order, run, idle⟩ := registry.resolve_run
    obtain ⟨after, there, same⟩ := class_congr run.declarations.symm here
    refine ⟨after, there, ?_, ?_⟩
    · by_contra neither
      rw [not_or, Bool.not_eq_true, Bool.not_eq_true] at neither
      have waits := awaits_iff.mpr ⟨after, there, neither.2, neither.1⟩
      rw [idle position] at waits
      cases waits
    · intro unset chained
      cases waits : registry.awaits position with
      | true =>
          obtain ⟨bases, completed⟩ := run.completed here waits (idle position)
          rw [there, Option.some.injEq] at completed
          rw [completed]
          rfl
      | false =>
          have kept := run.settled waits
          rw [here, there, Option.some.injEq] at kept
          rw [kept, unset] at chained
          cases chained

/-- Two classes of one name among three that all lead back to themselves. -/
def tangle : Registry :=
  .ofList
    [{ ClassDoc.ofName "Left" 1 with baseNames := ["Right", "Left"] },
      { ClassDoc.ofName "Right" 2 with baseNames := ["Left"] },
      { ClassDoc.ofName "Left" 3 with baseNames := ["Left", "Right"] }]

theorem resolve_terminates_tangle :
    ∃ machine last : Machine, (Machine.start tangle).Reaches machine ∧
      machine.frames.length = 2 ∧ machine.opened.card = 2 ∧ 2 ≤ tangle.size ∧
      machine.Reaches last ∧ last.Ended ∧ last.registry = tangle.resolve ∧
      ∃ after : ClassDoc, tangle.resolve.classes[1]? = some after ∧ after.chain.isSome = true ∧
        after.inherited.isSome = true := by
  obtain ⟨⟨last, ended, final, onward⟩, along, complete⟩ := resolve_terminates tangle
  -- the loop calls for the first class, and its call for the second
  obtain ⟨machine, path, deep⟩ : ∃ machine, (Machine.start tangle).Reaches machine ∧
      machine.frames.length = 2 :=
    ⟨_, .first rfl (.first rfl (.first rfl (.first rfl .refl))), rfl⟩
  obtain ⟨_stops, _range, size, bound, _closed, _fresh⟩ := along machine path
  rw [deep] at size bound
  obtain ⟨after, there, settled, both⟩ := complete 1 _ rfl
  have chained := settled.resolve_left (by cases there; decide)
  exact ⟨machine, last, path, deep, size, bound, onward machine path, ended, final, after, there,
    chained, both rfl chained⟩

end DocHarvest.Registry
