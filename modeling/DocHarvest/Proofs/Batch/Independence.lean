import DocHarvest.Harvest
import DocHarvest.Proofs.Inheritance.Segments

/-!
Sources that do not know of each other.

A batch resolves the classes of all its files together and deals them out again.  If no class
declares a base that is named like a class of another file, each file gets what it would get in a
batch of its own, whatever names the files share and whatever cycles they have within.
-/

namespace DocHarvest

open Registry (Foreign)
open Program (Parser Tree)

section Units

variable {parser : Parser} {config : Config}

/-- What is harvested from a unit before inheritance is resolved. -/
def SourceUnit.file (parser : Parser) (config : Config) (unit : SourceUnit) : FileDoc :=
  match extract parser config.style unit.path unit.text with
  | .ok file => file
  | .error _ => .empty unit.path

theorem SourceUnit.file_of_ok {unit : SourceUnit} {file : FileDoc}
    (read : extract parser config.style unit.path unit.text = .ok file) :
    unit.file parser config = file := by
  unfold SourceUnit.file
  rw [read]

theorem SourceUnit.file_of_error {unit : SourceUnit} {error : Error}
    (refused : extract parser config.style unit.path unit.text = .error error) :
    unit.file parser config = .empty unit.path := by
  unfold SourceUnit.file
  rw [refused]

variable (parser config) in
theorem extractUnits_files (units : List SourceUnit) :
    (extractUnits parser config units).files = units.map (SourceUnit.file parser config) := by
  induction units using List.reverseRecOn with
  | nil => rfl
  | append_singleton units unit ih =>
      unfold extractUnits at ih ⊢
      rw [List.foldl_append, List.map_append, ← ih, List.foldl_cons, List.foldl_nil]
      unfold Batch.add
      cases outcome : extract parser config.style unit.path unit.text with
      | ok file => rw [List.map_singleton, SourceUnit.file_of_ok outcome]
      | error error => rw [List.map_singleton, SourceUnit.file_of_error outcome]

end Units

/-! ### Files of one batch -/

/-- A file with its classes resolved among themselves. -/
def FileDoc.resolved (file : FileDoc) : FileDoc :=
  { file with classes := (Registry.ofList file.classes).resolve.classes }

/-- Neither of two files declares a base that is named like a class of the other. -/
def FileDoc.Apart (left right : FileDoc) : Prop :=
  Foreign left.classes right.classes ∧ Foreign right.classes left.classes

theorem dealOut_resolved (files : List FileDoc) :
    dealOut files (files.flatMap fun file => file.resolved.classes) =
      files.map FileDoc.resolved := by
  induction files with
  | nil => rfl
  | cons file rest ih =>
      have length : file.resolved.classes.length = file.classes.length :=
        (Registry.size_congr (Registry.declarations_resolve _)).trans (Registry.size_ofList _)
      rw [List.flatMap_cons, dealOut, ← length, List.take_left, List.drop_left, ih]
      rfl

/-- Files that do not know of each other are resolved one by one. -/
theorem resolveFiles_of_apart {files : List FileDoc} (apart : files.Pairwise FileDoc.Apart) :
    resolveFiles files = files.map FileDoc.resolved := by
  have resolved := Registry.resolve_flatten (List.pairwise_map.mpr apart)
  rw [← List.flatMap_def, List.flatMap_map] at resolved
  rw [resolveFiles, resolved]
  exact dealOut_resolved files

-- both files have a class of one name, and the bases of the first lead in a circle
example :
    let knot : FileDoc :=
      { FileDoc.empty "knot.py" with
        classes :=
          [{ ClassDoc.ofName "Main" 1 with baseNames := ["Node"] },
            { ClassDoc.ofName "Node" 2 with baseNames := ["Edge"] },
            { ClassDoc.ofName "Edge" 3 with baseNames := ["Node"] }] }
    let line : FileDoc :=
      { FileDoc.empty "line.py" with
        classes :=
          [{ ClassDoc.ofName "Main" 1 with baseNames := ["Base"] }, ClassDoc.ofName "Base" 2] }
    resolveFiles [knot, line] = [knot.resolved, line.resolved] := by
  decide

/-! ### Batches -/

section Batches

variable (parser : Parser) (config : Config)

theorem harvestSources_files (units : List SourceUnit) :
    (harvestSources parser config units).files =
      if config.resolveInheritance then resolveFiles (units.map (SourceUnit.file parser config))
      else units.map (SourceUnit.file parser config) := by
  rw [← extractUnits_files, harvestSources]
  split
  · rfl
  · rfl

/-- A unit on its own is resolved on its own. -/
theorem harvestSource_eq (unit : SourceUnit) :
    harvestSource parser config unit.path unit.text =
      if config.resolveInheritance then (unit.file parser config).resolved
      else unit.file parser config := by
  have alone : resolveFiles [unit.file parser config] = [(unit.file parser config).resolved] :=
    resolveFiles_of_apart (List.pairwise_singleton _ _)
  rw [harvestSource, harvestSources_files, List.map_singleton, alone]
  split
  · rfl
  · rfl

variable {parser config} in
/-- Units that cannot be read have no classes, so that only the others matter. -/
theorem SourceUnit.foreign_file {left right : SourceUnit}
    (foreign : ∀ mine theirs, extract parser config.style left.path left.text = .ok mine →
      extract parser config.style right.path right.text = .ok theirs →
      Foreign mine.classes theirs.classes) :
    Foreign (left.file parser config).classes (right.file parser config).classes := by
  cases read : extract parser config.style left.path left.text with
  | error error =>
      rw [SourceUnit.file_of_error read]
      exact fun _record member => absurd member List.not_mem_nil
  | ok mine =>
      cases other : extract parser config.style right.path right.text with
      | error error =>
          rw [SourceUnit.file_of_error other]
          exact fun _record _member _other listed => absurd listed List.not_mem_nil
      | ok theirs =>
          rw [SourceUnit.file_of_ok read, SourceUnit.file_of_ok other]
          exact foreign mine theirs read other

/-- If no class extracted from a unit declares a base that is named like a class extracted from
another unit, each file of the batch is the file of its unit harvested alone. -/
theorem harvestSources_independent (units : List SourceUnit)
    (independent : ∀ (i j : Nat) (left right : SourceUnit), i ≠ j →
      units[i]? = some left → units[j]? = some right →
      ∀ mine theirs, extract parser config.style left.path left.text = .ok mine →
        extract parser config.style right.path right.text = .ok theirs →
        Foreign mine.classes theirs.classes) :
    (harvestSources parser config units).files =
      units.map fun unit => harvestSource parser config unit.path unit.text := by
  have apart : (units.map (SourceUnit.file parser config)).Pairwise FileDoc.Apart := by
    rw [List.pairwise_map, List.pairwise_iff_getElem]
    intro i j first second before
    have here := List.getElem?_eq_getElem first
    have there := List.getElem?_eq_getElem second
    exact ⟨SourceUnit.foreign_file (independent i j _ _ (Nat.ne_of_lt before) here there),
      SourceUnit.foreign_file (independent j i _ _ (Nat.ne_of_gt before) there here)⟩
  simp only [harvestSource_eq]
  rw [harvestSources_files, resolveFiles_of_apart apart, List.map_map]
  split
  · rfl
  · rfl

end Batches

/-! ### Two modules of classes -/

/-- The line `class name(base): pass`. -/
def classLine (line : Nat) (name base : String) : Tree :=
  let close := name.length + base.length + 7
  .node none .classDefinition
    [.leaf none (.literal "class") (if line = 0 then [] else ['\n']) "class".toList ⟨line, 0⟩,
      .leaf (some .name) .identifier [' '] name.toList ⟨line, 6⟩,
      .node (some .bases) .argumentList
        [.leaf none (.literal "(") [] ['('] ⟨line, name.length + 6⟩,
          .leaf none .identifier [] base.toList ⟨line, name.length + 7⟩,
          .leaf none (.literal ")") [] [')'] ⟨line, close⟩],
      .leaf none (.literal ":") [] [':'] ⟨line, close + 1⟩,
      .node (some .body) .block
        [.node none .passStatement
            [.leaf none (.literal "pass") [' '] "pass".toList ⟨line, close + 3⟩],
          .leaf none .newline [] [] ⟨line, close + 7⟩]]

/-- The bases of the first class lead in a circle. -/
def knot : SourceUnit :=
  ⟨"knot.py", "class Main(Node): pass\nclass Node(Edge): pass\nclass Edge(Node): pass\n"⟩

/-- The first class has the name of one in the other module. -/
def chain : SourceUnit :=
  ⟨"chain.py", "class Main(Base): pass\nclass Base(object): pass\n"⟩

/-- A function whose signature is not closed. -/
def broken : SourceUnit :=
  ⟨"broken.py", "def broken(:\n    pass\n"⟩

def knotTree : Tree :=
  .node none .sourceFile
    [classLine 0 "Main" "Node", classLine 1 "Node" "Edge", classLine 2 "Edge" "Node"]

def chainTree : Tree :=
  .node none .sourceFile [classLine 0 "Main" "Base", classLine 1 "Base" "object"]

def brokenTree : Tree :=
  .node none .sourceFile
    [.node none .functionDefinition
      [.leaf none (.literal "def") [] "def".toList ⟨0, 0⟩,
        .leaf (some .name) .identifier [' '] "broken".toList ⟨0, 4⟩,
        .node (some .parameters) .parameters
          [.leaf none (.literal "(") [] ['('] ⟨0, 10⟩, .leaf none (.missing ")") [] [] ⟨0, 11⟩],
        .leaf none (.literal ":") [] [':'] ⟨0, 11⟩,
        .node (some .body) .block
          [.node none .passStatement
            [.leaf none (.literal "pass") "\n    ".toList "pass".toList ⟨1, 4⟩]]]]

/-- A parser that knows these three texts. -/
def threeTexts : Parser where
  refused? := none
  parse text :=
    [(knot.text.toList, knotTree), (chain.text.toList, chainTree),
      (broken.text.toList, brokenTree)].lookup text

theorem extract_knot :
    extract threeTexts .google knot.path knot.text =
      .ok (Extract.moduleDoc .google "knot.py" knotTree) := by
  rfl

theorem extract_chain :
    extract threeTexts .google chain.path chain.text =
      .ok (Extract.moduleDoc .google "chain.py" chainTree) := by
  rfl

theorem extract_broken :
    extract threeTexts .google broken.path broken.text =
      .error (.malformed "broken.py" 1 12 "missing ')'") := by
  rfl

theorem harvestSources_independent_knotAndChain :
    ((extract threeTexts .google knot.path knot.text).map fun file =>
        file.classes.map ClassDoc.name) = .ok ["Main", "Node", "Edge"] ∧
      ((extract threeTexts .google chain.path chain.text).map fun file =>
        file.classes.map ClassDoc.name) = .ok ["Main", "Base"] ∧
      (harvestSources threeTexts .default [knot, chain]).files =
        [harvestSource threeTexts .default knot.path knot.text,
          harvestSource threeTexts .default chain.path chain.text] := by
  refine ⟨by rw [extract_knot]; decide, by rw [extract_chain]; decide,
    harvestSources_independent threeTexts .default [knot, chain] ?_⟩
  intro i j left right other here there mine theirs read also
  match i, j with
  | 0, 0 => exact absurd rfl other
  | 0, 1 =>
      cases here
      cases there
      cases extract_knot.symm.trans read
      cases extract_chain.symm.trans also
      unfold Foreign
      decide
  | 1, 0 =>
      cases here
      cases there
      cases extract_chain.symm.trans read
      cases extract_knot.symm.trans also
      unfold Foreign
      decide
  | 1, 1 => exact absurd rfl other

end DocHarvest
