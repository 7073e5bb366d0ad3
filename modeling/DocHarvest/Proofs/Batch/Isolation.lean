import DocHarvest.Proofs.Batch.Independence

/-!
Batches lose nothing, and a unit that cannot be read harms no other.

Every unit has its file, with the classes that were extracted from it: resolution moves no class
and changes no declaration, and classes are dealt out by the numbers in which they were gathered.
A unit that cannot be read brings no class, so that a batch without it gives the same files.
-/

namespace DocHarvest

open Program (Parser)

/-- A file without anything that inheritance adds to its classes. -/
def FileDoc.declaration (file : FileDoc) : FileDoc :=
  { file with classes := file.classes.map ClassDoc.declaration }

theorem FileDoc.path_of_declaration {left right : FileDoc}
    (same : left.declaration = right.declaration) : left.path = right.path := by
  have paths := congrArg FileDoc.path same
  exact paths

theorem FileDoc.classNames_of_declaration {left right : FileDoc}
    (same : left.declaration = right.declaration) :
    left.classes.map ClassDoc.name = right.classes.map ClassDoc.name := by
  have names := congrArg (fun file => file.classes.map ClassDoc.name) same
  simp only [declaration, List.map_map] at names
  exact names

theorem FileDoc.eq_empty_of_declaration {file : FileDoc} {path : String}
    (same : file.declaration = (FileDoc.empty path).declaration) : file = .empty path := by
  obtain ⟨filePath, docstring, functions, classes⟩ := file
  simp only [FileDoc.declaration, FileDoc.empty, FileDoc.mk.injEq, List.map_nil,
    List.map_eq_nil_iff] at same ⊢
  exact same

/-! ### Dealing out -/

/-- Classes go back to the files that they came from, whatever is added to them in between. -/
theorem dealOut_declaration (files : List FileDoc) {classes : List ClassDoc}
    (same : classes.map ClassDoc.declaration =
      (files.flatMap FileDoc.classes).map ClassDoc.declaration) :
    (dealOut files classes).map FileDoc.declaration = files.map FileDoc.declaration := by
  induction files generalizing classes with
  | nil => rfl
  | cons file rest ih =>
      rw [List.flatMap_cons, List.map_append] at same
      have mine := congrArg (List.take file.classes.length) same
      have others := congrArg (List.drop file.classes.length) same
      rw [← List.map_take, List.take_left' (List.length_map _)] at mine
      rw [← List.map_drop, List.drop_left' (List.length_map _)] at others
      rw [dealOut, List.map_cons, List.map_cons, ih others]
      unfold FileDoc.declaration
      rw [mine]

theorem resolveFiles_declaration (files : List FileDoc) :
    (resolveFiles files).map FileDoc.declaration = files.map FileDoc.declaration :=
  dealOut_declaration files
    ((Registry.declarations_resolve _).trans (Registry.declarations_ofList _))

section Units

variable (parser : Parser) (config : Config)

theorem harvestSources_declaration (units : List SourceUnit) :
    (harvestSources parser config units).files.map FileDoc.declaration =
      units.map fun unit => (unit.file parser config).declaration := by
  rw [harvestSources_files]
  split
  · rw [resolveFiles_declaration, List.map_map]
    rfl
  · rw [List.map_map]
    rfl

/-! ### What a unit gives -/

theorem Extract.ofTree_path {style : Style} {path : String} {tree : Program.Tree} {file : FileDoc}
    (read : ofTree style path tree = .ok file) : file.path = path := by
  unfold ofTree at read
  split at read
  · cases read
  · split at read
    · cases read
    · cases read
      rfl

variable {parser} in
theorem extract_path {style : Style} {path source : String} {file : FileDoc}
    (read : extract parser style path source = .ok file) : file.path = path := by
  unfold extract at read
  split at read
  · cases read
  · split at read
    · cases read
    · exact Extract.ofTree_path read

/-- The failure of a unit that cannot be read. -/
def SourceUnit.failure? (unit : SourceUnit) : Option Failure :=
  match extract parser config.style unit.path unit.text with
  | .ok _ => none
  | .error error => some ⟨unit.path, error.message⟩

variable {parser config} in
theorem SourceUnit.failure?_of_ok {unit : SourceUnit} {file : FileDoc}
    (read : extract parser config.style unit.path unit.text = .ok file) :
    unit.failure? parser config = none := by
  unfold SourceUnit.failure?
  rw [read]

variable {parser config} in
theorem SourceUnit.failure?_of_error {unit : SourceUnit} {error : Error}
    (refused : extract parser config.style unit.path unit.text = .error error) :
    unit.failure? parser config = some ⟨unit.path, error.message⟩ := by
  unfold SourceUnit.failure?
  rw [refused]

theorem extractUnits_failures (units : List SourceUnit) :
    (extractUnits parser config units).failures =
      units.filterMap (SourceUnit.failure? parser config) := by
  induction units using List.reverseRecOn with
  | nil => rfl
  | append_singleton units unit ih =>
      unfold extractUnits at ih ⊢
      rw [List.foldl_append, List.filterMap_append, ← ih, List.foldl_cons, List.foldl_nil]
      unfold Batch.add
      cases outcome : extract parser config.style unit.path unit.text with
      | ok file =>
          rw [List.filterMap_cons_none (SourceUnit.failure?_of_ok outcome), List.filterMap_nil,
            List.append_nil]
      | error error =>
          rw [List.filterMap_cons_some (SourceUnit.failure?_of_error outcome), List.filterMap_nil]

theorem harvestSources_failures (units : List SourceUnit) :
    (harvestSources parser config units).failures =
      units.filterMap (SourceUnit.failure? parser config) := by
  rw [← extractUnits_failures, harvestSources]
  split
  · rfl
  · rfl

/-- A file holds what was extracted from a unit, up to what inheritance adds to the classes; it is
empty if nothing could be extracted. -/
def SourceUnit.Gives (unit : SourceUnit) (file : FileDoc) : Prop :=
  file.path = unit.path ∧
    match extract parser config.style unit.path unit.text with
    | .error _ => file = .empty unit.path
    | .ok found =>
        file.declaration = found.declaration ∧
          (config.resolveInheritance = false → file = found)

variable {parser config} in
theorem SourceUnit.Gives.eq_empty {unit : SourceUnit} {file : FileDoc}
    {error : Error} (gives : unit.Gives parser config file)
    (refused : extract parser config.style unit.path unit.text = .error error) :
    file = .empty unit.path := by
  obtain ⟨_path, found⟩ := gives
  rw [refused] at found
  exact found

variable {parser config} in
theorem SourceUnit.Gives.declaration {unit : SourceUnit} {file found : FileDoc}
    (gives : unit.Gives parser config file)
    (read : extract parser config.style unit.path unit.text = .ok found) :
    file.declaration = found.declaration := by
  obtain ⟨_path, given⟩ := gives
  rw [read] at given
  exact given.1

variable {parser config} in
theorem SourceUnit.gives_of_declaration {unit : SourceUnit} {file : FileDoc}
    (same : file.declaration = (unit.file parser config).declaration)
    (plain : config.resolveInheritance = false → file = unit.file parser config) :
    unit.Gives parser config file := by
  have path := FileDoc.path_of_declaration same
  unfold SourceUnit.Gives
  cases outcome : extract parser config.style unit.path unit.text with
  | error error =>
      rw [SourceUnit.file_of_error outcome] at same path
      exact ⟨path, FileDoc.eq_empty_of_declaration same⟩
  | ok found =>
      rw [SourceUnit.file_of_ok outcome] at same plain path
      exact ⟨path.trans (extract_path outcome), same, plain⟩

theorem harvestSources_gives (units : List SourceUnit) :
    List.Forall₂ (SourceUnit.Gives parser config) units
      (harvestSources parser config units).files := by
  have same := harvestSources_declaration parser config units
  have plain : config.resolveInheritance = false →
      (harvestSources parser config units).files = units.map (SourceUnit.file parser config) := by
    intro off
    rw [harvestSources_files, if_neg (by rw [off]; exact Bool.false_ne_true)]
  have total := congrArg List.length same
  rw [List.length_map, List.length_map] at total
  rw [List.forall₂_iff_get]
  refine ⟨total.symm, ?_⟩
  intro i here there
  apply SourceUnit.gives_of_declaration
  · have entry := congrArg (fun list => list[i]?) same
    simpa [here, there] using entry
  · intro off
    have entry := congrArg (fun list => list[i]?) (plain off)
    simpa [here, there] using entry

theorem harvestSources_paths (units : List SourceUnit) :
    (harvestSources parser config units).files.map FileDoc.path = units.map SourceUnit.path := by
  have gives := harvestSources_gives parser config units
  generalize (harvestSources parser config units).files = files at gives
  induction gives with
  | nil => rfl
  | cons given _rest ih => rw [List.map_cons, List.map_cons, given.1, ih]

end Units

/-! ### Leaving units out -/

/-- A list without the entries at some positions. -/
def deleteAt {α : Type} (deleted : Nat → Bool) : List α → List α
  | [] => []
  | entry :: rest =>
      let later := deleteAt (fun position => deleted (position + 1)) rest
      if deleted 0 then later else entry :: later

theorem map_deleteAt {α β : Type} (image : α → β) (deleted : Nat → Bool) (entries : List α) :
    (deleteAt deleted entries).map image = deleteAt deleted (entries.map image) := by
  induction entries generalizing deleted with
  | nil => rfl
  | cons entry rest ih =>
      simp only [deleteAt, List.map_cons]
      split
      · exact ih _
      · rw [List.map_cons, ih]

/-- The files at some positions have no classes. -/
def Bare (deleted : Nat → Bool) (files : List FileDoc) : Prop :=
  ∀ (position : Nat) (file : FileDoc), deleted position = true → files[position]? = some file →
    file.classes = []

theorem Bare.tail {deleted : Nat → Bool} {file : FileDoc} {rest : List FileDoc}
    (bare : Bare deleted (file :: rest)) :
    Bare (fun position => deleted (position + 1)) rest := by
  intro position other gone there
  exact bare (position + 1) other gone (by rw [List.getElem?_cons_succ]; exact there)

theorem Bare.head {deleted : Nat → Bool} {file : FileDoc} {rest : List FileDoc}
    (bare : Bare deleted (file :: rest)) (gone : deleted 0 = true) : file.classes = [] :=
  bare 0 file gone rfl

theorem flatMap_classes_deleteAt {deleted : Nat → Bool} {files : List FileDoc}
    (bare : Bare deleted files) :
    (deleteAt deleted files).flatMap FileDoc.classes = files.flatMap FileDoc.classes := by
  induction files generalizing deleted with
  | nil => rfl
  | cons file rest ih =>
      have later := ih bare.tail
      simp only [deleteAt, List.flatMap_cons]
      split
      · next gone => rw [bare.head gone, List.nil_append, later]
      · rw [List.flatMap_cons, later]

theorem dealOut_deleteAt {deleted : Nat → Bool} {files : List FileDoc}
    (bare : Bare deleted files) (classes : List ClassDoc) :
    dealOut (deleteAt deleted files) classes = deleteAt deleted (dealOut files classes) := by
  induction files generalizing deleted classes with
  | nil => rfl
  | cons file rest ih =>
      simp only [deleteAt, dealOut]
      split
      · next gone => rw [bare.head gone, List.length_nil, List.drop_zero, ih bare.tail]
      · rw [dealOut, ih bare.tail]

/-- Files without classes take no part in resolution. -/
theorem resolveFiles_deleteAt {deleted : Nat → Bool} {files : List FileDoc}
    (bare : Bare deleted files) :
    resolveFiles (deleteAt deleted files) = deleteAt deleted (resolveFiles files) := by
  unfold resolveFiles
  rw [flatMap_classes_deleteAt bare]
  exact dealOut_deleteAt bare _

theorem harvestSources_deleteAt {parser : Parser} {config : Config} {units : List SourceUnit}
    {deleted : Nat → Bool}
    (bare : Bare deleted (units.map (SourceUnit.file parser config))) :
    (harvestSources parser config (deleteAt deleted units)).files =
      deleteAt deleted (harvestSources parser config units).files := by
  rw [harvestSources_files, harvestSources_files, map_deleteAt]
  split
  · exact resolveFiles_deleteAt bare
  · rfl

/-- A batch has one file for each unit, in the order of the units, and each holds what was extracted
from its unit.  The failures are those of the units that cannot be read, and leaving out any of
these changes no other file. -/
theorem harvestSources_isolated (parser : Parser) (config : Config) (units : List SourceUnit) :
    List.Forall₂ (SourceUnit.Gives parser config) units (harvestSources parser config units).files ∧
    (harvestSources parser config units).failures =
      units.filterMap (SourceUnit.failure? parser config) ∧
    ∀ deleted : Nat → Bool,
      (∀ (position : Nat) (unit : SourceUnit), deleted position = true →
        units[position]? = some unit →
        ∃ error, extract parser config.style unit.path unit.text = .error error) →
      (harvestSources parser config (deleteAt deleted units)).files =
        deleteAt deleted (harvestSources parser config units).files := by
  refine ⟨harvestSources_gives parser config units, harvestSources_failures parser config units, ?_⟩
  intro deleted failing
  apply harvestSources_deleteAt
  intro position file gone there
  rw [List.getElem?_map, Option.map_eq_some_iff] at there
  obtain ⟨unit, here, rfl⟩ := there
  obtain ⟨error, refused⟩ := failing position unit gone here
  rw [SourceUnit.file_of_error refused]
  rfl

theorem harvestSources_isolated_broken :
    ∃ first second,
      (harvestSources threeTexts .default [broken, knot, chain]).files =
        [.empty "broken.py", first, second] ∧
      (harvestSources threeTexts .default [broken, knot, chain]).failures =
        [⟨"broken.py", "Syntax error in broken.py:1:12: missing ')'"⟩] ∧
      first.classes.map ClassDoc.name = ["Main", "Node", "Edge"] ∧
      second.classes.map ClassDoc.name = ["Main", "Base"] ∧
      (harvestSources threeTexts .default [knot, chain]).files = [first, second] := by
  obtain ⟨gives, failures, isolated⟩ :=
    harvestSources_isolated threeTexts .default [broken, knot, chain]
  have without := isolated (fun position => position == 0) (by
    intro position unit gone here
    rw [beq_iff_eq] at gone
    subst gone
    cases here
    exact ⟨_, extract_broken⟩)
  generalize (harvestSources threeTexts .default [broken, knot, chain]).files = files
    at gives without ⊢
  cases gives with
  | cons empty rest =>
      cases rest with
      | cons first rest =>
          cases rest with
          | cons second rest =>
              cases rest
              have knotClasses := FileDoc.classNames_of_declaration (first.declaration extract_knot)
              have chainClasses :=
                FileDoc.classNames_of_declaration (second.declaration extract_chain)
              refine ⟨_, _, by rw [empty.eq_empty extract_broken]; rfl, failures.trans (by rfl),
                knotClasses.trans (by decide), chainClasses.trans (by decide), without⟩

end DocHarvest
