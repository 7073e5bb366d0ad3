import DocHarvest.Harvest
import DocHarvest.Proofs.Batch.Isolation

/-!
Files that cannot be read keep their places.

The files that could be read make one batch, and empty results for the others are inserted at the
positions of their paths, the first position first.  Before each insertion the list is complete up
to that position, so that no insertion lies beyond the end and the last one leaves one result for
each path, in the order of the paths.
-/

namespace DocHarvest

open Program (Parser)

/-- Whether a path could not be read. -/
def isUnread (outcome : String × Except Error String) : Bool :=
  match outcome.2 with
  | .ok _ => false
  | .error _ => true

/-- The failure of a path that could not be read. -/
def readFailure? (outcome : String × Except Error String) : Option Failure :=
  match outcome.2 with
  | .ok _ => none
  | .error error => some ⟨outcome.1, error.message⟩

/-- Whether a path could not be read, or nothing could be extracted from its text. -/
def failsToHarvest (parser : Parser) (config : Config)
    (outcome : String × Except Error String) : Bool :=
  match outcome.2 with
  | .ok text => (SourceUnit.failure? parser config ⟨outcome.1, text⟩).isSome
  | .error _ => true

section Outcomes

variable {path text : String} {error : Error} {outcomes : List (String × Except Error String)}

@[simp]
theorem readUnits_cons_ok :
    readUnits ((path, .ok text) :: outcomes) = ⟨path, text⟩ :: readUnits outcomes := rfl

@[simp]
theorem readUnits_cons_error :
    readUnits ((path, .error error) :: outcomes) = readUnits outcomes := rfl

@[simp]
theorem readFailures_cons_ok :
    ((path, .ok text) :: outcomes).filterMap readFailure? = outcomes.filterMap readFailure? := rfl

@[simp]
theorem readFailures_cons_error :
    ((path, .error error) :: outcomes).filterMap readFailure? =
      ⟨path, error.message⟩ :: outcomes.filterMap readFailure? := rfl

end Outcomes

/-! ### Insertions -/

/-- Insertions one after the other, each at a position up to the end of the list as it then is. -/
inductive Inserts : Batch → List Unread → Batch → Prop where
  | done (batch : Batch) : Inserts batch [] batch
  | step {batch final : Batch} {unread : Unread} {rest : List Unread}
      (within : unread.position ≤ batch.files.length)
      (later : Inserts (batch.addUnread unread) rest final) : Inserts batch (unread :: rest) final

theorem Inserts.foldl_eq {batch final : Batch} {unread : List Unread}
    (inserts : Inserts batch unread final) : unread.foldl Batch.addUnread batch = final := by
  induction inserts with
  | done batch => rfl
  | step _within _later ih => exact ih

/-- Results for all paths: those that were read have theirs in order, the others an empty one. -/
def interleave : List (String × Except Error String) → List FileDoc → List FileDoc
  | [], files => files
  | (path, .error _) :: rest, files => .empty path :: interleave rest files
  | (_, .ok _) :: rest, file :: files => file :: interleave rest files
  | (_, .ok _) :: rest, [] => interleave rest []

private theorem insertIdx_between {α : Type} (front back : List α) (entry : α) :
    (front ++ back).insertIdx front.length entry = front ++ entry :: back := by
  induction front with
  | nil => rfl
  | cons first rest ih =>
      rw [List.cons_append, List.length_cons, List.insertIdx_succ_cons, ih, List.cons_append]

-- `front` holds the results for the paths that have been passed, and `back` those of the readable
-- paths that are still to come; an insertion takes place exactly between the two
theorem unreadFrom_inserts (outcomes : List (String × Except Error String))
    (front back : List FileDoc) (failures : List Failure)
    (enough : back.length = (readUnits outcomes).length) :
    Inserts ⟨front ++ back, failures⟩ (unreadFrom front.length outcomes)
      ⟨front ++ interleave outcomes back, failures ++ outcomes.filterMap readFailure?⟩ := by
  induction outcomes generalizing front back failures with
  | nil =>
      rw [List.filterMap_nil, List.append_nil]
      exact .done _
  | cons outcome rest ih =>
      obtain ⟨path, error | text⟩ := outcome
      · have later := ih (front ++ [.empty path]) back (failures ++ [⟨path, error.message⟩]) enough
        rw [List.append_assoc, List.append_assoc, List.append_assoc, List.length_append] at later
        refine .step ?_ ?_
        · rw [List.length_append]
          exact Nat.le_add_right _ _
        · unfold Batch.addUnread
          rw [insertIdx_between]
          exact later
      · cases back with
        | nil => cases enough
        | cons file back =>
            have later := ih (front ++ [file]) back failures (Nat.succ.inj enough)
            rw [List.append_assoc, List.append_assoc, List.length_append] at later
            exact later

theorem harvestSources_length (parser : Parser) (config : Config) (units : List SourceUnit) :
    (harvestSources parser config units).files.length = units.length :=
  (harvestSources_gives parser config units).length_eq.symm

theorem harvestRead_eq (parser : Parser) (config : Config)
    (outcomes : List (String × Except Error String)) :
    harvestRead parser config outcomes =
      { files := interleave outcomes (harvestSources parser config (readUnits outcomes)).files
        failures := (harvestSources parser config (readUnits outcomes)).failures ++
          outcomes.filterMap readFailure? } :=
  (unreadFrom_inserts outcomes [] _ _ (harvestSources_length parser config _)).foldl_eq

theorem harvestRead_inserts (parser : Parser) (config : Config)
    (outcomes : List (String × Except Error String)) :
    Inserts (harvestSources parser config (readUnits outcomes)) (unreadFrom 0 outcomes)
      (harvestRead parser config outcomes) := by
  rw [harvestRead_eq]
  exact unreadFrom_inserts outcomes [] _ _ (harvestSources_length parser config _)

/-! ### The results of all paths -/

theorem interleave_paths (outcomes : List (String × Except Error String)) {files : List FileDoc}
    (same : files.map FileDoc.path = (readUnits outcomes).map SourceUnit.path) :
    (interleave outcomes files).map FileDoc.path = outcomes.map Prod.fst := by
  induction outcomes generalizing files with
  | nil => exact same
  | cons outcome rest ih =>
      obtain ⟨path, error | text⟩ := outcome
      · exact congrArg (path :: ·) (ih same)
      · cases files with
        | nil => cases same
        | cons file files =>
            rw [readUnits_cons_ok, List.map_cons, List.map_cons, List.cons.injEq] at same
            rw [interleave, List.map_cons, List.map_cons, same.1, ih same.2]

theorem interleave_unread {outcomes : List (String × Except Error String)}
    {files : List FileDoc} {position : Nat} {path : String} {error : Error}
    (enough : files.length = (readUnits outcomes).length)
    (here : outcomes[position]? = some (path, .error error)) :
    (interleave outcomes files)[position]? = some (.empty path) := by
  induction outcomes generalizing files position with
  | nil => cases here
  | cons outcome rest ih =>
      obtain ⟨other, _ | text⟩ := outcome
      · cases position with
        | zero =>
            cases here
            rfl
        | succ position => exact ih enough here
      · cases files with
        | nil => cases enough
        | cons file files =>
            cases position with
            | zero => cases here
            | succ position => exact ih (Nat.succ.inj enough) here

theorem deleteAt_interleave {outcomes : List (String × Except Error String)}
    {files : List FileDoc} (enough : files.length = (readUnits outcomes).length) :
    deleteAt (fun position => (outcomes[position]?).any isUnread) (interleave outcomes files) =
      files := by
  induction outcomes generalizing files with
  | nil =>
      cases List.length_eq_zero_iff.mp enough
      rfl
  | cons outcome rest ih =>
      obtain ⟨path, _ | text⟩ := outcome
      · exact ih enough
      · cases files with
        | nil => cases enough
        | cons file files => exact congrArg (file :: ·) (ih (Nat.succ.inj enough))

theorem length_failures (parser : Parser) (config : Config)
    (outcomes : List (String × Except Error String)) :
    ((readUnits outcomes).filterMap (SourceUnit.failure? parser config)).length +
      (outcomes.filterMap readFailure?).length = outcomes.countP (failsToHarvest parser config) := by
  induction outcomes with
  | nil => rfl
  | cons outcome rest ih =>
      obtain ⟨path, error | text⟩ := outcome
      · rw [readUnits_cons_error, readFailures_cons_error, List.length_cons,
          List.countP_cons_of_pos rfl]
        omega
      · rw [readUnits_cons_ok, readFailures_cons_ok, List.countP_cons]
        cases failed : SourceUnit.failure? parser config ⟨path, text⟩ with
        | none =>
            rw [List.filterMap_cons_none failed, if_neg (by simp [failsToHarvest, failed])]
            exact ih
        | some failure =>
            rw [List.filterMap_cons_some failed, List.length_cons,
              if_pos (by simp [failsToHarvest, failed])]
            omega

/-- Each path has one result, in the order of the paths: an empty one if it could not be read, else
that of its unit in the batch of the readable paths.  The failures of this batch are listed before
those of the paths that could not be read, and there are as many as paths that failed. -/
structure InputOrder (parser : Parser) (config : Config)
    (outcomes : List (String × Except Error String)) (batch : Batch) : Prop where
  paths : batch.files.map FileDoc.path = outcomes.map Prod.fst
  unread : ∀ (position : Nat) (path : String) (error : Error),
    outcomes[position]? = some (path, .error error) →
      batch.files[position]? = some (.empty path)
  read : deleteAt (fun position => (outcomes[position]?).any isUnread) batch.files =
    (harvestSources parser config (readUnits outcomes)).files
  failures : batch.failures = (readUnits outcomes).filterMap (SourceUnit.failure? parser config) ++
    outcomes.filterMap readFailure?
  failed : batch.failures.length = outcomes.countP (failsToHarvest parser config)
  bounded : batch.failures.length ≤ batch.files.length

theorem harvestRead_inputOrder (parser : Parser) (config : Config)
    (outcomes : List (String × Except Error String)) :
    InputOrder parser config outcomes (harvestRead parser config outcomes) := by
  have enough := harvestSources_length parser config (readUnits outcomes)
  have paths := interleave_paths outcomes (harvestSources_paths parser config (readUnits outcomes))
  have failed := length_failures parser config outcomes
  rw [harvestRead_eq, harvestSources_failures]
  refine
    { paths
      unread := fun position path error here => interleave_unread enough here
      read := deleteAt_interleave enough
      failures := rfl
      failed := List.length_append.trans failed
      bounded := ?_ }
  have total := congrArg List.length paths
  rw [List.length_map, List.length_map] at total
  rw [List.length_append, failed, total]
  exact List.countP_le_length

theorem Config.validate_error {config : Config} (invalid : config.validate ≠ .ok ()) :
    ∃ reason, config.validate = .error (.invalidConfig reason) := by
  unfold Config.validate at invalid ⊢
  by_cases sized : config.maxFileSize = 0
  · exact ⟨_, if_pos sized⟩
  · rw [if_neg sized] at invalid ⊢
    by_cases unnamed : config.fileExtensions.isEmpty
    · exact ⟨_, if_pos unnamed⟩
    · rw [if_neg unnamed] at invalid
      exact absurd rfl invalid

/-- Harvesting files succeeds exactly for valid configurations.  Whatever could be read, no result
is inserted beyond the end of the list, and the results stand in the order of the paths. -/
theorem harvestFiles_inputOrder (parser : Parser) (config : Config) (workspace : Workspace)
    (paths : List String) :
    (config.validate = .ok () →
      harvestFiles parser config workspace paths = .ok (harvestRead parser config
        (paths.map fun path => (path, readSource config workspace path)))) ∧
    (config.validate ≠ .ok () →
      ∃ reason, harvestFiles parser config workspace paths = .error (.invalidConfig reason)) ∧
    ∀ outcomes : List (String × Except Error String),
      Inserts (harvestSources parser config (readUnits outcomes)) (unreadFrom 0 outcomes)
        (harvestRead parser config outcomes) ∧
      InputOrder parser config outcomes (harvestRead parser config outcomes) := by
  refine ⟨?_, ?_, fun outcomes =>
    ⟨harvestRead_inserts parser config outcomes, harvestRead_inputOrder parser config outcomes⟩⟩
  · intro valid
    unfold harvestFiles
    rw [valid]
  · intro invalid
    obtain ⟨reason, refused⟩ := Config.validate_error invalid
    refine ⟨reason, ?_⟩
    unfold harvestFiles
    rw [refused]

/-- A path that is not supported stands on both sides of two that could be read, and nothing can be
extracted from the text of the first of these. -/
def scattered : List (String × Except Error String) :=
  [("notes.txt", .error (.unsupported "notes.txt")), (broken.path, .ok broken.text),
    (knot.path, .ok knot.text), ("notes.txt", .error (.unsupported "notes.txt"))]

theorem harvestFiles_inputOrder_scattered :
    (harvestFiles threeTexts .default ⟨.directory [], []⟩ ["notes.txt", "knot.py"]).isOk = true ∧
    (∃ reason, harvestFiles threeTexts (Config.default.withMaxFileSize 0) ⟨.directory [], []⟩
      ["notes.txt"] = .error (.invalidConfig reason)) ∧
    Inserts (harvestSources threeTexts .default [broken, knot])
      [⟨0, "notes.txt", .unsupported "notes.txt"⟩, ⟨3, "notes.txt", .unsupported "notes.txt"⟩]
      (harvestRead threeTexts .default scattered) ∧
    (harvestRead threeTexts .default scattered).files.map FileDoc.path =
      ["notes.txt", "broken.py", "knot.py", "notes.txt"] ∧
    ((harvestRead threeTexts .default scattered).files[2]?.map fun file =>
      file.classes.map ClassDoc.name) = some ["Main", "Node", "Edge"] ∧
    (harvestRead threeTexts .default scattered).files[3]? = some (.empty "notes.txt") ∧
    deleteAt (fun position => (scattered[position]?).any isUnread)
        (harvestRead threeTexts .default scattered).files =
      (harvestSources threeTexts .default [broken, knot]).files ∧
    (harvestRead threeTexts .default scattered).failures =
      [⟨"broken.py", "Syntax error in broken.py:1:12: missing ')'"⟩,
        ⟨"notes.txt", "Unsupported file type: notes.txt"⟩,
        ⟨"notes.txt", "Unsupported file type: notes.txt"⟩] := by
  obtain ⟨valid, _invalid, ordered⟩ :=
    harvestFiles_inputOrder threeTexts .default ⟨.directory [], []⟩ ["notes.txt", "knot.py"]
  obtain ⟨_valid, invalid, _ordered⟩ :=
    harvestFiles_inputOrder threeTexts (Config.default.withMaxFileSize 0) ⟨.directory [], []⟩
      ["notes.txt"]
  obtain ⟨inserts, order⟩ := ordered scattered
  refine ⟨?_, invalid ?_, inserts, order.paths, by rfl, order.unread 3 "notes.txt" _ rfl,
    order.read, order.failures.trans (by rfl)⟩
  · rw [valid rfl]
    rfl
  · intro impossible
    cases impossible

end DocHarvest
