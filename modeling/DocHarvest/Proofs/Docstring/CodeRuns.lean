import Mathlib.Data.List.TakeWhile
import DocHarvest.Docstring.Section

/-!
Example code as maximal runs.

Whether a line is code may depend on the line before it, so code is a property of positions.  A run
is a stretch of positions, all of them code, with no code directly before it or behind it.  The
blocks of example code are the runs from the first to the last, each with its lines as they stand.
-/

namespace DocHarvest.Docstring

open Text (Line)

/-- The positions of code among some lines: prompts, indented lines, and continuations directly
behind code. -/
inductive CodeAt (lines : List Line) : Nat → Prop where
  | prompt {position : Nat} {line : Line} (here : lines[position]? = some line)
      (visible : Text.isBlankText line = false)
      (marked : ">>>".toList <+: Text.trimStart line) : CodeAt lines position
  | indented {position : Nat} {line : Line} (here : lines[position]? = some line)
      (visible : Text.isBlankText line = false)
      (inside : 0 < Text.indentation line) : CodeAt lines position
  | continued {position : Nat} {line : Line} (here : lines[position + 1]? = some line)
      (visible : Text.isBlankText line = false)
      (marked : "...".toList <+: Text.trimStart line)
      (before : CodeAt lines position) : CodeAt lines (position + 1)

/-- The positions from `start` on, up to `stop` and without it. -/
structure Stretch where
  start : Nat
  stop : Nat
deriving DecidableEq, Repr

namespace Stretch

def Holds (stretch : Stretch) (position : Nat) : Prop :=
  stretch.start ≤ position ∧ position < stretch.stop

def cut (stretch : Stretch) (lines : List Line) : List Line :=
  (lines.take stretch.stop).drop stretch.start

end Stretch

/-- A stretch of code that cannot be made longer. -/
structure IsRun (lines : List Line) (run : Stretch) : Prop where
  nonempty : run.start < run.stop
  code : ∀ position, run.Holds position → CodeAt lines position
  opened : ∀ position, position + 1 = run.start → ¬CodeAt lines position
  closed : ¬CodeAt lines run.stop

/-! ### Runs -/

section Runs

variable {lines : List Line}

theorem CodeAt.lt_length {position : Nat} (code : CodeAt lines position) :
    position < lines.length := by
  cases code with
  | prompt here _visible _marked => exact (List.getElem?_eq_some_iff.mp here).1
  | indented here _visible _inside => exact (List.getElem?_eq_some_iff.mp here).1
  | continued here _visible _marked _before => exact (List.getElem?_eq_some_iff.mp here).1

theorem IsRun.codeAt_start {run : Stretch} (isRun : IsRun lines run) : CodeAt lines run.start :=
  isRun.code run.start ⟨Nat.le_refl _, isRun.nonempty⟩

theorem IsRun.eq_of_start_mem {left right : Stretch} (leftRun : IsRun lines left)
    (rightRun : IsRun lines right) (inside : left.Holds right.start) : right = left := by
  have starts : right.start = left.start := by
    by_contra apart
    obtain ⟨after, within⟩ := inside
    exact rightRun.opened (right.start - 1) (by omega)
      (leftRun.code (right.start - 1) ⟨by omega, by omega⟩)
  have stops : right.stop = left.stop := by
    have leftLong := leftRun.nonempty
    have rightLong := rightRun.nonempty
    rcases Nat.lt_trichotomy right.stop left.stop with short | same | long
    · exact absurd (leftRun.code right.stop ⟨by omega, short⟩) rightRun.closed
    · exact same
    · exact absurd (rightRun.code left.stop ⟨by omega, long⟩) leftRun.closed
  cases left
  cases right
  cases starts
  cases stops
  rfl

theorem IsRun.eq_of_holds {left right : Stretch} (leftRun : IsRun lines left)
    (rightRun : IsRun lines right) {position : Nat} (inLeft : left.Holds position)
    (inRight : right.Holds position) : right = left := by
  rcases Nat.le_total left.start right.start with first | first
  · exact leftRun.eq_of_start_mem rightRun ⟨first, Nat.lt_of_le_of_lt inRight.1 inLeft.2⟩
  · exact (rightRun.eq_of_start_mem leftRun ⟨first, Nat.lt_of_le_of_lt inLeft.1 inRight.2⟩).symm

/-- Going back from a line of code, one comes to where the code begins. -/
private theorem exists_start {position : Nat} (code : CodeAt lines position) :
    ∃ start ≤ position, (∀ between, start ≤ between → between ≤ position → CodeAt lines between) ∧
      ∀ earlier, earlier + 1 = start → ¬CodeAt lines earlier := by
  induction position with
  | zero =>
      refine ⟨0, Nat.le_refl 0, ?_, ?_⟩
      · intro between _after within
        rw [Nat.le_zero.mp within]
        exact code
      · intro earlier follows
        omega
  | succ position ih =>
      by_cases more : CodeAt lines position
      · obtain ⟨start, before, all, opened⟩ := ih more
        refine ⟨start, by omega, ?_, opened⟩
        intro between after within
        rcases Nat.lt_or_eq_of_le within with inner | last
        · exact all between after (by omega)
        · exact last ▸ code
      · refine ⟨position + 1, Nat.le_refl _, ?_, ?_⟩
        · intro between after within
          rw [Nat.le_antisymm within after]
          exact code
        · intro earlier follows
          rw [Nat.succ.inj follows]
          exact more

/-- Going on from a line of code, one comes to where the code ends. -/
private theorem exists_stop {position : Nat} (code : CodeAt lines position) :
    ∃ stop > position, (∀ between, position ≤ between → between < stop → CodeAt lines between) ∧
      ¬CodeAt lines stop := by
  -- the lines that are left become fewer
  generalize left : lines.length - position = count
  induction count generalizing position with
  | zero =>
      have within := code.lt_length
      omega
  | succ count ih =>
      by_cases more : CodeAt lines (position + 1)
      · obtain ⟨stop, before, all, closed⟩ := ih more (by omega)
        refine ⟨stop, by omega, ?_, closed⟩
        intro between after within
        rcases Nat.lt_or_eq_of_le after with inner | first
        · exact all between inner within
        · exact first ▸ code
      · refine ⟨position + 1, Nat.lt_succ_self position, ?_, more⟩
        intro between after within
        rw [Nat.le_antisymm (Nat.le_of_lt_succ within) after]
        exact code

theorem CodeAt.exists_run {position : Nat} (code : CodeAt lines position) :
    ∃ run, IsRun lines run ∧ run.Holds position := by
  obtain ⟨start, before, inFront, opened⟩ := exists_start code
  obtain ⟨stop, behind, onward, closed⟩ := exists_stop code
  refine ⟨⟨start, stop⟩, ⟨Nat.lt_of_le_of_lt before behind, ?_, opened, closed⟩, before, behind⟩
  rintro between ⟨after, within⟩
  rcases Nat.le_total between position with early | late
  · exact inFront between after early
  · exact onward between late within

end Runs

/-! ### The scan -/

theorem isCodeLine_eq_true_iff {afterCode : Bool} {line : Line} :
    isCodeLine afterCode line = true ↔
      Text.isBlankText line = false ∧
        (">>>".toList <+: Text.trimStart line ∨
          (afterCode = true ∧ "...".toList <+: Text.trimStart line) ∨
          0 < Text.indentation line) := by
  have blank : (Text.trimStart line).isEmpty = Text.isBlankText line := by
    rw [Bool.eq_iff_iff, List.isEmpty_iff]
    unfold Text.trimStart Text.isBlankText
    rw [List.dropWhile_eq_nil_iff, List.all_eq_true]
  unfold isCodeLine
  simp only [blank, Bool.and_eq_true, Bool.not_eq_true', Bool.or_eq_true, decide_eq_true_eq,
     List.isPrefixOf_iff_prefix, or_assoc]

/-- Lines of which a scan has some behind it, the last of them a run under way that is given
backwards. -/
structure Scanned (lines before run rest : List Line) : Prop where
  whole : lines = before ++ (run.reverse ++ rest)
  code : ∀ position, before.length ≤ position → position < before.length + run.length →
    CodeAt lines position
  opened : ∀ position, position + 1 = before.length → ¬CodeAt lines position

namespace Scanned

variable {lines before run rest : List Line} {line : Line}

theorem start (lines : List Line) : Scanned lines [] [] lines where
  whole := rfl
  code := by
    intro position after within
    exact absurd within (Nat.not_lt_of_le after)
  opened := by
    intro position follows
    exact absurd follows (Nat.succ_ne_zero position)

theorem getElem?_next (scanned : Scanned lines before run (line :: rest)) :
    lines[before.length + run.length]? = some line := by
  rw [scanned.whole, List.getElem?_append_right (Nat.le_add_right _ _), Nat.add_sub_cancel_left,
    List.getElem?_append_right (Nat.le_of_eq List.length_reverse), List.length_reverse,
    Nat.sub_self]
  rfl

theorem code_before (scanned : Scanned lines before run rest) {position : Nat}
    (last : position + 1 = before.length + run.length) : CodeAt lines position ↔ run ≠ [] := by
  cases run with
  | nil =>
      have closed := scanned.opened position last
      exact iff_of_false closed (fun other => other rfl)
  | cons line run =>
      rw [List.length_cons] at last
      have code := scanned.code position (by omega) (by rw [List.length_cons]; omega)
      exact iff_of_true code (List.cons_ne_nil line run)

theorem codeAt_next (scanned : Scanned lines before run (line :: rest)) :
    CodeAt lines (before.length + run.length) ↔ isCodeLine (!run.isEmpty) line = true := by
  have here := scanned.getElem?_next
  rw [isCodeLine_eq_true_iff]
  constructor
  · intro code
    generalize at_ : before.length + run.length = position at here code
    cases code with
    | prompt found visible marked =>
        rw [here, Option.some.injEq] at found
        subst found
        exact ⟨visible, Or.inl marked⟩
    | indented found visible inside =>
        rw [here, Option.some.injEq] at found
        subst found
        exact ⟨visible, Or.inr (Or.inr inside)⟩
    | continued found visible marked earlier =>
        rw [here, Option.some.injEq] at found
        subst found
        have underway := (scanned.code_before at_.symm).mp earlier
        exact ⟨visible, Or.inr (Or.inl ⟨by simpa using underway, marked⟩)⟩
  · rintro ⟨visible, marked | ⟨underway, marked⟩ | inside⟩
    · exact .prompt here visible marked
    · have nonempty : run ≠ [] := by simpa using underway
      have long := List.length_pos_iff.mpr nonempty
      obtain ⟨position, last⟩ : ∃ position, position + 1 = before.length + run.length :=
        ⟨before.length + run.length - 1, by omega⟩
      rw [← last] at here ⊢
      exact .continued here visible marked ((scanned.code_before last).mpr nonempty)
    · exact .indented here visible inside

theorem extend (scanned : Scanned lines before run (line :: rest))
    (code : CodeAt lines (before.length + run.length)) :
    Scanned lines before (line :: run) rest where
  whole := by
    rw [scanned.whole, List.reverse_cons, List.append_assoc, List.singleton_append]
  code := by
    intro position after within
    rw [List.length_cons] at within
    rcases Nat.lt_or_eq_of_le (Nat.le_of_lt_succ within) with inner | last
    · exact scanned.code position after inner
    · exact last ▸ code
  opened := scanned.opened

theorem renew (scanned : Scanned lines before run (line :: rest))
    (prose : ¬CodeAt lines (before.length + run.length)) :
    Scanned lines (before ++ run.reverse ++ [line]) [] rest where
  whole := by
    rw [scanned.whole, List.reverse_nil, List.nil_append, List.append_assoc, List.append_assoc,
      List.singleton_append]
  code := by
    intro position after within
    exact absurd within (Nat.not_lt_of_le after)
  opened := by
    intro position follows
    rw [List.length_append, List.length_append, List.length_reverse] at follows
    rw [Nat.succ.inj follows]
    exact prose

theorem isRun (scanned : Scanned lines before run rest) (nonempty : run ≠ [])
    (closed : ¬CodeAt lines (before.length + run.length)) :
    IsRun lines ⟨before.length, before.length + run.length⟩ where
  nonempty := Nat.lt_add_of_pos_right (List.length_pos_iff.mpr nonempty)
  code := fun position ⟨after, within⟩ => scanned.code position after within
  opened := scanned.opened
  closed := closed

theorem cut_eq (scanned : Scanned lines before run rest) :
    Stretch.cut ⟨before.length, before.length + run.length⟩ lines = run.reverse := by
  unfold Stretch.cut
  rw [List.drop_take, Nat.add_sub_cancel_left, scanned.whole, List.drop_left,
    List.take_left' List.length_reverse]

theorem length_eq (scanned : Scanned lines before run []) :
    lines.length = before.length + run.length := by
  rw [scanned.whole, List.append_nil, List.length_append, List.length_reverse]

/-- Where the code ends, the runs that are left are the one under way, if there is one, and those
that begin later. -/
theorem isRun_iff (scanned : Scanned lines before run rest)
    (closed : ¬CodeAt lines (before.length + run.length)) (stretch : Stretch) :
    IsRun lines stretch ∧ before.length ≤ stretch.start ↔
      (run ≠ [] ∧ stretch = ⟨before.length, before.length + run.length⟩) ∨
        (IsRun lines stretch ∧ before.length + run.length < stretch.start) := by
  constructor
  · rintro ⟨found, after⟩
    rcases Nat.lt_trichotomy stretch.start (before.length + run.length) with inner | same | later
    · have nonempty : run ≠ [] := by
        rintro rfl
        exact absurd inner (Nat.not_lt_of_le after)
      exact Or.inl ⟨nonempty, (scanned.isRun nonempty closed).eq_of_start_mem found ⟨after, inner⟩⟩
    · exact absurd (same ▸ found.codeAt_start) closed
    · exact Or.inr ⟨found, later⟩
  · rintro (⟨nonempty, rfl⟩ | ⟨found, later⟩)
    · exact ⟨scanned.isRun nonempty closed, Nat.le_refl _⟩
    · exact ⟨found, by omega⟩

/-- Where the code ends, the run under way goes in front of the later ones. -/
theorem close (scanned : Scanned lines before run rest)
    (closed : ¬CodeAt lines (before.length + run.length)) {later : List Stretch}
    (apart : later.Pairwise fun left right => left.stop < right.start)
    (members : ∀ stretch, stretch ∈ later ↔
      IsRun lines stretch ∧ before.length + run.length < stretch.start) :
    ∃ runs : List Stretch,
      (if run.isEmpty then later.map (·.cut lines) else run.reverse :: later.map (·.cut lines)) =
        runs.map (·.cut lines) ∧
      runs.Pairwise (fun left right => left.stop < right.start) ∧
      ∀ stretch, stretch ∈ runs ↔ IsRun lines stretch ∧ before.length ≤ stretch.start := by
  by_cases none : run = []
  · refine ⟨later, by simp [none], apart, fun stretch => ?_⟩
    rw [scanned.isRun_iff closed, members, or_iff_right]
    exact fun underway => underway.1 none
  · refine ⟨⟨before.length, before.length + run.length⟩ :: later, ?_, ?_, fun stretch => ?_⟩
    · simp [none, scanned.cut_eq]
    · exact List.pairwise_cons.mpr ⟨fun next member => ((members next).mp member).2, apart⟩
    · rw [scanned.isRun_iff closed, List.mem_cons, members, and_iff_right none]

end Scanned

/-- The runs that a scan still finds are those that do not begin before the run under way. -/
theorem codeRunsFrom_eq_runs {lines before run rest : List Line}
    (scanned : Scanned lines before run rest) :
    ∃ runs : List Stretch, codeRunsFrom run rest = runs.map (·.cut lines) ∧
      runs.Pairwise (fun left right => left.stop < right.start) ∧
      ∀ stretch, stretch ∈ runs ↔ IsRun lines stretch ∧ before.length ≤ stretch.start := by
  induction rest generalizing before run with
  | nil =>
      have outside {position : Nat} (late : before.length + run.length ≤ position) :
          ¬CodeAt lines position := by
        intro code
        have within := code.lt_length
        rw [scanned.length_eq] at within
        omega
      apply scanned.close (outside (Nat.le_refl _)) List.Pairwise.nil
      intro stretch
      refine iff_of_false List.not_mem_nil ?_
      rintro ⟨found, late⟩
      exact outside (Nat.le_of_lt late) found.codeAt_start
  | cons line rest ih =>
      rw [codeRunsFrom]
      split
      · next code => exact ih (scanned.extend (scanned.codeAt_next.mpr code))
      · next prose =>
          have closed : ¬CodeAt lines (before.length + run.length) := fun code =>
            prose (scanned.codeAt_next.mp code)
          obtain ⟨later, found, apart, members⟩ := ih (scanned.renew closed)
          rw [found]
          apply scanned.close closed apart
          intro stretch
          rw [members, List.length_append, List.length_append, List.length_reverse]
          exact Iff.rfl

/-- The blocks of example code are the runs of code in their order, each with its lines as they
stand.  Every line of code is in exactly one of them, and no other line is in any. -/
theorem exampleBlocks_eq_runs (lines : List Line) :
    ∃ runs : List Stretch,
      runs.Pairwise (fun left right => left.stop < right.start) ∧
      (∀ run, run ∈ runs ↔ IsRun lines run) ∧
      exampleBlocks lines = runs.map (fun run => String.ofList (Text.unlines (run.cut lines))) ∧
      ∀ position, CodeAt lines position ↔ ∃! run, run ∈ runs ∧ run.Holds position := by
  obtain ⟨runs, found, apart, members⟩ := codeRunsFrom_eq_runs (Scanned.start lines)
  have all (run : Stretch) : run ∈ runs ↔ IsRun lines run := by
    rw [members, and_iff_left]
    exact Nat.zero_le _
  refine ⟨runs, apart, all, ?_, ?_⟩
  · unfold exampleBlocks
    rw [found, List.map_map]
    rfl
  · intro position
    constructor
    · intro code
      obtain ⟨run, isRun, inside⟩ := code.exists_run
      refine ⟨run, ⟨(all run).mpr isRun, inside⟩, ?_⟩
      rintro other ⟨member, within⟩
      exact isRun.eq_of_holds ((all other).mp member) inside within
    · rintro ⟨run, ⟨member, inside⟩, _only⟩
      exact ((all run).mp member).code position inside

/-- A continuation behind a blank line is prose. -/
example : exampleBlocks ([">>> add(", "... 1)", "", "... 2)", "    3"].map String.toList) =
    [">>> add(\n... 1)", "    3"] := by decide

end DocHarvest.Docstring
