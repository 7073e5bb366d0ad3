import DocHarvest.Proofs.Batch.InputOrder
import DocHarvest.Proofs.Path.Joining
import DocHarvest.Proofs.Text.ByteOrder

/-!
The files that a walk finds.

A route is the list of names from a directory to a file below it.  The files found are those at the
end of admissible routes: the name of the file has an accepted extension, the file is not ignored,
and no directory on the way is excluded.  The walk passes over whole directories, but it decides on
them by what every file below them shares.  Routes are found in their lexical order, which is that
of a walk that goes into each directory before it goes on to the next entry.
-/

namespace DocHarvest

open Program (Parser)

/-- Discovery and the reading of files check extensions separately, and agree. -/
theorem isSourceFile_eq_canParse (config : Config) (path : String) :
    isSourceFile config path = config.canParse path := by
  unfold isSourceFile Config.canParse
  cases Path.extension? path with
  | none => rfl
  | some extension => rfl

namespace FileNode

/-- A tree as it is kept on a disk: each entry of a directory has a name of its own. -/
inductive WellNamed : FileNode → Prop where
  | file (contents : ByteArray) : WellNamed (.file contents)
  | link (target : String) : WellNamed (.link target)
  | directory {entries : List (String × FileNode)}
      (named : ∀ entry ∈ entries, Path.IsName entry.1)
      (distinct : (entries.map Prod.fst).Nodup)
      (inner : ∀ entry ∈ entries, WellNamed entry.2) : WellNamed (.directory entries)

/-- A file lies at the end of a route; links are not followed. -/
def HasFile (node : FileNode) (names : List String) : Prop :=
  ∃ contents, node.at? names = some (.file contents)

/-! ### Routes in a tree -/

section Entries

variable {entries : List (String × FileNode)} {name : String} {node : FileNode}
  {names : List String}

theorem mem_of_entry?_eq (found : entry? name (directory entries) = some node) :
    (name, node) ∈ entries := by
  obtain ⟨⟨known, inner⟩, listed, rfl⟩ := Option.map_eq_some_iff.mp found
  have same : known = name := by simpa using List.find?_some listed
  subst same
  exact List.mem_of_find?_eq_some listed

theorem entry?_of_mem (distinct : (entries.map Prod.fst).Nodup) (member : (name, node) ∈ entries) :
    entry? name (directory entries) = some node := by
  induction entries with
  | nil => cases member
  | cons entry rest ih =>
      rw [List.map_cons, List.nodup_cons] at distinct
      rw [ entry?, List.find?_cons]
      rcases List.mem_cons.mp member with rfl | later
      · rw [beq_self_eq_true]
        rfl
      · have other : (entry.1 == name) = false := by
          rw [beq_eq_false_iff_ne]
          intro same
          refine distinct.1 ?_
          rw [same]
          exact List.mem_map_of_mem later
        rw [other]
        exact ih distinct.2 later

theorem hasFile_directory (distinct : (entries.map Prod.fst).Nodup) :
    (directory entries).HasFile names ↔
      ∃ entry ∈ entries, ∃ rest, names = entry.1 :: rest ∧ entry.2.HasFile rest := by
  constructor
  · rintro ⟨contents, found⟩
    cases names with
    | nil => cases found
    | cons name rest =>
        obtain ⟨node, here, later⟩ := Option.bind_eq_some_iff.mp found
        exact ⟨(name, node), mem_of_entry?_eq here, rest, rfl, contents, later⟩
  · rintro ⟨⟨name, node⟩, member, rest, rfl, contents, found⟩
    refine ⟨contents, ?_⟩
    rw [at?, entry?_of_mem distinct member]
    exact found

theorem ne_nil_of_hasFile (found : (directory entries).HasFile names) : names ≠ [] := by
  rintro rfl
  obtain ⟨contents, reached⟩ := found
  cases reached

theorem hasFile_file {contents : ByteArray} : (file contents).HasFile names ↔ names = [] := by
  constructor
  · rintro ⟨found, reached⟩
    cases names with
    | nil => rfl
    | cons name rest => cases reached
  · rintro rfl
    exact ⟨contents, rfl⟩

theorem not_hasFile_link {target : String} : ¬ (link target).HasFile names := by
  rintro ⟨contents, reached⟩
  cases names with
  | nil => cases reached
  | cons name rest => cases reached

end Entries

theorem WellNamed.at? {node inner : FileNode} {names : List String} (wellNamed : node.WellNamed)
    (found : node.at? names = some inner) : inner.WellNamed := by
  induction names generalizing node with
  | nil =>
      cases found
      exact wellNamed
  | cons name rest ih =>
      obtain ⟨next, here, later⟩ := Option.bind_eq_some_iff.mp found
      cases wellNamed with
      | file contents => cases here
      | link target => cases here
      | directory named distinct inner => exact ih (inner _ (mem_of_entry?_eq here)) later

theorem WellNamed.names {node : FileNode} {names : List String} (wellNamed : node.WellNamed)
    (reached : node.HasFile names) : ∀ name ∈ names, Path.IsName name := by
  induction wellNamed generalizing names with
  | file contents =>
      rw [hasFile_file] at reached
      subst reached
      exact fun name member => absurd member List.not_mem_nil
  | link target => exact absurd reached not_hasFile_link
  | directory named distinct inner ih =>
      obtain ⟨entry, member, rest, rfl, later⟩ := (hasFile_directory distinct).mp reached
      exact List.forall_mem_cons.mpr ⟨named entry member, ih entry member later⟩

/-! ### Entries in the order of their names -/

/-- The entries of a directory in the order of their names. -/
def byName (entries : List (String × FileNode)) : List (String × FileNode) :=
  entries.foldr insertSorted []

theorem insertSorted_perm (entry : String × FileNode) (entries : List (String × FileNode)) :
    (insertSorted entry entries).Perm (entry :: entries) := by
  induction entries with
  | nil => exact List.Perm.refl _
  | cons other rest ih =>
      unfold insertSorted
      split
      · exact List.Perm.refl _
      · exact (ih.cons other).trans (List.Perm.swap entry other rest)

theorem byName_perm (entries : List (String × FileNode)) : (byName entries).Perm entries := by
  induction entries with
  | nil => exact List.Perm.refl _
  | cons entry rest ih => exact (insertSorted_perm entry _).trans (ih.cons entry)

theorem insertSorted_ordered {entry : String × FileNode} {entries : List (String × FileNode)}
    (fresh : ∀ other ∈ entries, entry.1 ≠ other.1)
    (ordered : entries.Pairwise fun left right => left.1 < right.1) :
    (insertSorted entry entries).Pairwise fun left right => left.1 < right.1 := by
  induction entries with
  | nil => exact List.pairwise_singleton _ _
  | cons other rest ih =>
      obtain ⟨different, later⟩ := List.forall_mem_cons.mp fresh
      obtain ⟨first, restOrdered⟩ := List.pairwise_cons.mp ordered
      unfold insertSorted
      split
      · next before =>
          have notAfter : ¬ other.1 < entry.1 := by simpa [nameBefore] using before
          have less : entry.1 < other.1 := Std.lt_of_le_of_ne (String.not_lt.mp notAfter) different
          refine List.pairwise_cons.mpr ⟨?_, ordered⟩
          intro next member
          rcases List.mem_cons.mp member with rfl | inRest
          · exact less
          · exact String.lt_trans less (first next inRest)
      · next after =>
          have less : other.1 < entry.1 := by simpa [nameBefore] using after
          refine List.pairwise_cons.mpr ⟨?_, ih later restOrdered⟩
          intro next member
          rcases List.mem_cons.mp ((insertSorted_perm entry rest).mem_iff.mp member) with
            rfl | inRest
          · exact less
          · exact first next inRest

theorem byName_ordered {entries : List (String × FileNode)}
    (distinct : (entries.map Prod.fst).Nodup) :
    (byName entries).Pairwise fun left right => left.1 < right.1 := by
  induction entries with
  | nil => exact List.Pairwise.nil
  | cons entry rest ih =>
      rw [List.map_cons, List.nodup_cons] at distinct
      refine insertSorted_ordered ?_ (ih distinct.2)
      intro other member same
      refine distinct.1 ?_
      rw [same]
      exact List.mem_map_of_mem ((byName_perm rest).mem_iff.mp member)

theorem insertSorted_map (image : FileNode → FileNode) (entry : String × FileNode)
    (entries : List (String × FileNode)) :
    insertSorted (entry.1, image entry.2) (entries.map (Prod.map id image)) =
      (insertSorted entry entries).map (Prod.map id image) := by
  induction entries with
  | nil => rfl
  | cons other rest ih =>
      rw [List.map_cons, insertSorted, insertSorted, ih]
      dsimp only [Prod.map_fst, id_eq]
      split
      · rfl
      · rfl

theorem sortedEntries_eq (entries : List (String × FileNode)) :
    sortedEntries entries = (byName entries).map (Prod.map id sorted) := by
  induction entries with
  | nil => rfl
  | cons entry rest ih =>
      rw [sortedEntries, ih]
      exact insertSorted_map sorted entry (byName rest)

end FileNode

/-! ### Admissible routes -/

/-- What a route to a file has to fulfil, as seen from a directory. -/
structure Admissible (config : Config) (workingDirectory : List String) (directory : String)
    (names : List String) : Prop where
  accepted : ∃ name ∈ names.getLast?, config.AcceptsName name
  kept : config.ignores workingDirectory (Path.below directory names) = false
  entered : ∀ name ∈ names.dropLast, config.excludesDir name = false

section Admissible

variable {config : Config} {workingDirectory : List String} {directory : String}

theorem admissible_singleton {name : String} :
    Admissible config workingDirectory directory [name] ↔
      config.AcceptsName name ∧
        config.ignores workingDirectory (Path.child directory name) = false := by
  constructor
  · rintro ⟨⟨last, found, accepted⟩, kept, _entered⟩
    cases found
    exact ⟨accepted, kept⟩
  · rintro ⟨accepted, kept⟩
    exact ⟨⟨name, rfl, accepted⟩, kept, fun other member => absurd member List.not_mem_nil⟩

theorem admissible_cons {name : String} {names : List String} (longer : names ≠ []) :
    Admissible config workingDirectory directory (name :: names) ↔
      config.excludesDir name = false ∧
        Admissible config workingDirectory (Path.child directory name) names := by
  obtain ⟨next, rest, rfl⟩ := List.exists_cons_of_ne_nil longer
  constructor
  · rintro ⟨accepted, kept, entered⟩
    obtain ⟨here, later⟩ := List.forall_mem_cons.mp entered
    exact ⟨here, accepted, kept, later⟩
  · rintro ⟨here, accepted, kept, later⟩
    exact ⟨accepted, kept, List.forall_mem_cons.mpr ⟨here, later⟩⟩

theorem Admissible.canParse {names : List String}
    (admissible : Admissible config workingDirectory directory names)
    (valid : ∀ name ∈ names, Path.IsName name) :
    config.canParse (Path.below directory names) = true := by
  obtain ⟨name, last, accepted⟩ := admissible.accepted
  obtain ⟨front, rfl⟩ := List.getLast?_eq_some_iff.mp last
  have named : Path.IsName name := valid name (List.mem_append_right _ List.mem_cons_self)
  rw [Path.below_append]
  exact (Config.canParse_child named _).mpr accepted

end Admissible

/-! ### Files and their routes -/

/-- Files are those at the end of some routes from a directory, in the order of the routes. -/
def Traces (directory : String) (files : List String) (reached : List String → Prop) : Prop :=
  ∃ routes : List (List String), files = routes.map (Path.below directory) ∧
    routes.Pairwise (· < ·) ∧ ∀ names, names ∈ routes ↔ reached names

namespace Traces

variable {directory : String} {files : List String} {reached : List String → Prop}

theorem congr {others : List String → Prop} (traces : Traces directory files reached)
    (same : ∀ names, reached names ↔ others names) : Traces directory files others := by
  obtain ⟨routes, listed, ordered, exactly⟩ := traces
  exact ⟨routes, listed, ordered, fun names => (exactly names).trans (same names)⟩

theorem nothing (nowhere : ∀ names, ¬ reached names) : Traces directory [] reached :=
  ⟨[], rfl, List.Pairwise.nil, fun names =>
    ⟨fun member => absurd member List.not_mem_nil, fun found => absurd found (nowhere names)⟩⟩

theorem one (names : List String) :
    Traces directory [Path.below directory names] (· = names) :=
  ⟨[names], rfl, List.pairwise_singleton _ _, fun _other => List.mem_singleton⟩

theorem append {others : List String} {beyond : List String → Prop}
    (first : Traces directory files reached) (second : Traces directory others beyond)
    (apart : ∀ left right, reached left → beyond right → left < right) :
    Traces directory (files ++ others) fun names => reached names ∨ beyond names := by
  obtain ⟨routes, rfl, ordered, exactly⟩ := first
  obtain ⟨later, rfl, laterOrdered, laterExactly⟩ := second
  refine ⟨routes ++ later, List.map_append.symm, ?_, ?_⟩
  · refine List.pairwise_append.mpr ⟨ordered, laterOrdered, ?_⟩
    intro left inFirst right inSecond
    exact apart left right ((exactly left).mp inFirst) ((laterExactly right).mp inSecond)
  · intro names
    rw [List.mem_append, exactly, laterExactly]

theorem under {name : String} (traces : Traces (Path.child directory name) files reached) :
    Traces directory files fun names => ∃ rest, names = name :: rest ∧ reached rest := by
  obtain ⟨routes, rfl, ordered, exactly⟩ := traces
  refine ⟨routes.map (name :: ·), ?_, ?_, ?_⟩
  · rw [List.map_map]
    rfl
  · refine List.pairwise_map.mpr (ordered.imp ?_)
    intro left right less
    exact List.cons_lt_cons_iff.mpr (Or.inr ⟨rfl, less⟩)
  · intro names
    rw [List.mem_map]
    constructor
    · rintro ⟨rest, member, rfl⟩
      exact ⟨rest, rfl, (exactly rest).mp member⟩
    · rintro ⟨rest, rfl, found⟩
      exact ⟨rest, (exactly rest).mpr found, rfl⟩

end Traces

namespace FileNode

variable {config : Config} {workingDirectory : List String}

/-- The admissible routes through one entry of a directory. -/
def Admits (config : Config) (workingDirectory : List String) (directory : String)
    (entry : String × FileNode) (names : List String) : Prop :=
  ∃ rest, names = entry.1 :: rest ∧ entry.2.HasFile rest ∧
    Admissible config workingDirectory directory names

/-- Entries in the order of their names are walked one after the other. -/
theorem sourcesBelow_map_traces (directory : String) {entries : List (String × FileNode)}
    (ordered : entries.Pairwise fun left right => left.1 < right.1)
    (each : ∀ entry ∈ entries, Traces directory
      (sourcesAt config workingDirectory entry.1 (Path.child directory entry.1) entry.2.sorted)
      (Admits config workingDirectory directory entry)) :
    Traces directory
      (sourcesBelow config workingDirectory directory (entries.map (Prod.map id sorted)))
      fun names => ∃ entry ∈ entries, Admits config workingDirectory directory entry names := by
  induction entries with
  | nil =>
      refine Traces.nothing ?_
      rintro names ⟨entry, member, _admits⟩
      cases member
  | cons entry rest ih =>
      obtain ⟨first, restOrdered⟩ := List.pairwise_cons.mp ordered
      obtain ⟨here, later⟩ := List.forall_mem_cons.mp each
      refine (here.append (ih restOrdered later) ?_).congr ?_
      · rintro left right ⟨inner, rfl, _found⟩ ⟨other, member, outer, rfl, _reached⟩
        exact List.cons_lt_cons_iff.mpr (Or.inl (first other member))
      · intro names
        rw [List.exists_mem_cons_iff]

theorem sourcesBelow_traces {entries : List (String × FileNode)}
    (distinct : (entries.map Prod.fst).Nodup) (directory : String)
    (each : ∀ entry ∈ entries, Traces directory
      (sourcesAt config workingDirectory entry.1 (Path.child directory entry.1) entry.2.sorted)
      (Admits config workingDirectory directory entry)) :
    Traces directory (sourcesBelow config workingDirectory directory (sortedEntries entries))
      fun names => (FileNode.directory entries).HasFile names ∧
        Admissible config workingDirectory directory names := by
  have listed (entry : String × FileNode) : entry ∈ byName entries ↔ entry ∈ entries :=
    (byName_perm entries).mem_iff
  rw [sortedEntries_eq]
  refine (sourcesBelow_map_traces directory (byName_ordered distinct)
    fun entry member => each entry ((listed entry).mp member)).congr ?_
  intro names
  rw [hasFile_directory distinct]
  constructor
  · rintro ⟨entry, member, rest, rfl, found, admissible⟩
    exact ⟨⟨entry, (listed entry).mp member, rest, rfl, found⟩, admissible⟩
  · rintro ⟨⟨entry, member, rest, rfl, found⟩, admissible⟩
    exact ⟨entry, (listed entry).mpr member, rest, rfl, found, admissible⟩

theorem sourcesAt_file_traces (contents : ByteArray) {name : String} (valid : Path.IsName name)
    (directory : String) :
    Traces directory
      (sourcesAt config workingDirectory name (Path.child directory name) (.file contents))
      (Admits config workingDirectory directory (name, .file contents)) := by
  have admits (names : List String) :
      Admits config workingDirectory directory (name, .file contents) names ↔
        names = [name] ∧ isSourceFile config (Path.child directory name) = true ∧
          config.ignores workingDirectory (Path.child directory name) = false := by
    rw [isSourceFile_eq_canParse, Config.canParse_child valid, ← admissible_singleton]
    constructor
    · rintro ⟨rest, rfl, found, admissible⟩
      rw [hasFile_file.mp found] at admissible ⊢
      exact ⟨rfl, admissible⟩
    · rintro ⟨rfl, admissible⟩
      exact ⟨[], rfl, hasFile_file.mpr rfl, admissible⟩
  rw [sourcesAt]
  split
  · next ignored =>
      refine Traces.nothing ?_
      intro names found
      rw [((admits names).mp found).2.2] at ignored
      cases ignored
  · next kept =>
      split
      · next accepted =>
          refine (Traces.one [name]).congr ?_
          intro names
          rw [admits]
          exact ⟨fun same => ⟨same, accepted, Bool.eq_false_iff.mpr kept⟩, And.left⟩
      · next refused =>
          refine Traces.nothing ?_
          intro names found
          exact refused ((admits names).mp found).2.1

/-- A directory that is ignored or excluded holds no admissible file. -/
theorem not_admits_of_passedOver {entries : List (String × FileNode)}
    (wellNamed : (FileNode.directory entries).WellNamed) {name directory : String}
    (passedOver : (config.ignores workingDirectory (Path.child directory name) ||
      config.excludesDir name) = true) (names : List String) :
    ¬ Admits config workingDirectory directory (name, .directory entries) names := by
  rintro ⟨rest, rfl, found, admissible⟩
  rcases Bool.or_eq_true_iff.mp passedOver with ignored | excluded
  · have below := config.ignores_below (wellNamed.names found) ignored
    have kept := admissible.kept
    rw [Path.below_cons, below] at kept
    cases kept
  · rw [((admissible_cons (ne_nil_of_hasFile found)).mp admissible).1] at excluded
    cases excluded

/-- The files found at an entry are those at the end of the admissible routes through it. -/
theorem sourcesAt_traces {node : FileNode} (wellNamed : node.WellNamed) {name : String}
    (valid : Path.IsName name) (directory : String) :
    Traces directory
      (sourcesAt config workingDirectory name (Path.child directory name) node.sorted)
      (Admits config workingDirectory directory (name, node)) := by
  induction wellNamed generalizing name directory with
  | file contents => exact sourcesAt_file_traces contents valid directory
  | link target =>
      refine Traces.nothing ?_
      rintro names ⟨rest, _same, found, _admissible⟩
      exact not_hasFile_link found
  | @directory entries named distinct inner ih =>
      rw [sorted, sourcesAt]
      split
      · next passedOver =>
          exact Traces.nothing
            (not_admits_of_passedOver (.directory named distinct inner) passedOver)
      · next entered =>
          rw [Bool.not_eq_true, Bool.or_eq_false_iff] at entered
          have inside := sourcesBelow_traces distinct (Path.child directory name)
            fun entry member => ih entry member (named entry member) _
          refine inside.under.congr ?_
          intro names
          refine exists_congr fun rest => and_congr_right ?_
          rintro rfl
          refine and_congr_right fun found => ?_
          rw [admissible_cons (ne_nil_of_hasFile found)]
          exact ⟨fun admissible => ⟨entered.2, admissible⟩, And.right⟩

end FileNode

/-! ### What is reported of the files found -/

/-- The letter that the text for an error begins with. -/
def Error.initial : Error → Char
  | .unreadable _ _ | .unknownStyle _ | .invalidConfig _ => 'I'
  | .malformed _ _ _ _ => 'S'
  | .tooLarge _ _ | .unwalkable _ _ => 'F'
  | .unsupported _ => 'U'
  | .unparsable _ _ => 'P'

private theorem begins_append {front : String} {letter : Char}
    (begins : front.toList.head? = some letter) (back : String) :
    (front ++ back).toList.head? = some letter := by
  rw [String.toList_append, List.head?_append, begins]
  rfl

theorem Error.head?_message (error : Error) :
    error.message.toList.head? = some error.initial := by
  cases error with
  | unreadable path fault =>
      unfold message
      iterate 3 refine begins_append ?_ _
      exact (by decide : "IO error reading ".toList.head? = some 'I')
  | malformed path line column detail =>
      unfold message
      iterate 7 refine begins_append ?_ _
      exact (by decide : "Syntax error in ".toList.head? = some 'S')
  | tooLarge path size =>
      unfold message
      iterate 4 refine begins_append ?_ _
      exact (by decide : "File ".toList.head? = some 'F')
  | unsupported path =>
      unfold message
      refine begins_append ?_ _
      exact (by decide : "Unsupported file type: ".toList.head? = some 'U')
  | unknownStyle token =>
      unfold message
      iterate 2 refine begins_append ?_ _
      exact (by decide : "Invalid docstring style '".toList.head? = some 'I')
  | invalidConfig reason =>
      unfold message
      refine begins_append ?_ _
      exact (by decide : "Invalid configuration: ".toList.head? = some 'I')
  | unwalkable path reason =>
      unfold message
      iterate 3 refine begins_append ?_ _
      exact (by decide : "Failed to walk ".toList.head? = some 'F')
  | unparsable path reason =>
      unfold message
      iterate 3 refine begins_append ?_ _
      exact (by decide : "Parse error in ".toList.head? = some 'P')

/-- The text for a file of an unsupported kind is that of no other error. -/
theorem Error.message_ne_unsupported {error : Error} (other : ∀ path, error ≠ .unsupported path)
    (path : String) : error.message ≠ (Error.unsupported path).message := by
  intro same
  have begins := error.head?_message
  rw [same, head?_message, Option.some.injEq] at begins
  cases error with
  | unsupported path => exact other path rfl
  | unreadable | malformed | tooLarge | unknownStyle | invalidConfig | unwalkable | unparsable =>
      cases begins

theorem extract_ne_unsupported (parser : Parser) (style : Style) (file source path : String) :
    extract parser style file source ≠ .error (.unsupported path) := by
  unfold extract
  split
  · exact nofun
  · split
    · exact nofun
    · unfold Extract.ofTree
      split
      · exact nofun
      · split
        · exact nofun
        · exact nofun

theorem readSource_ne_unsupported {config : Config} {workspace : Workspace} {file : String}
    (accepted : config.canParse file = true) (path : String) :
    readSource config workspace file ≠ .error (.unsupported path) := by
  unfold readSource
  rw [if_pos accepted]
  split
  · exact nofun
  · split
    · exact nofun
    · exact nofun

/-- No file is reported to be of an unsupported kind, be it by an error or by a failure. -/
def NoneUnsupported : Except Error Batch → Prop
  | .error error => ∀ path, error ≠ .unsupported path
  | .ok batch => ∀ failure ∈ batch.failures, ∀ path,
      failure.message ≠ (Error.unsupported path).message

theorem noneUnsupported_of_invalid {config : Config} {error : Error}
    (refused : config.validate = .error error) : NoneUnsupported (.error error) := by
  have notValid : config.validate ≠ .ok () := by
    rw [refused]
    exact nofun
  obtain ⟨reason, invalid⟩ := Config.validate_error notValid
  rw [refused] at invalid
  cases invalid
  exact nofun

theorem harvestFiles_noneUnsupported (parser : Parser) {config : Config} {workspace : Workspace}
    {files : List String} (accepted : ∀ file ∈ files, config.canParse file = true) :
    NoneUnsupported (harvestFiles parser config workspace files) := by
  unfold harvestFiles
  split
  · next error refused => exact noneUnsupported_of_invalid refused
  · intro failure member path
    rw [(harvestRead_inputOrder parser config _).failures] at member
    rcases List.mem_append.mp member with parsed | unread
    · obtain ⟨unit, _listed, failed⟩ := List.mem_filterMap.mp parsed
      unfold SourceUnit.failure? at failed
      split at failed
      · cases failed
      · next error refused =>
          cases failed
          refine Error.message_ne_unsupported ?_ path
          rintro other rfl
          exact extract_ne_unsupported parser _ _ _ _ refused
    · obtain ⟨outcome, listed, failed⟩ := List.mem_filterMap.mp unread
      obtain ⟨file, present, rfl⟩ := List.mem_map.mp listed
      unfold readFailure? at failed
      split at failed
      · cases failed
      · next error refused =>
          cases failed
          refine Error.message_ne_unsupported ?_ path
          rintro other rfl
          exact readSource_ne_unsupported (accepted file present) _ refused

theorem harvestDirectory_noneUnsupported (parser : Parser) {config : Config}
    {workspace : Workspace} {path : String}
    (accepted : ∀ files, discover config workspace path = .ok files →
      ∀ file ∈ files, config.canParse file = true)
    (walked : ∀ unsupported, discover config workspace path ≠ .error (.unsupported unsupported)) :
    NoneUnsupported (harvestDirectory parser config workspace path) := by
  unfold harvestDirectory
  split
  · next error refused =>
      exact noneUnsupported_of_invalid refused
  · split
    · next error failed =>
        rintro other rfl
        exact walked other failed
    · next files found => exact harvestFiles_noneUnsupported parser (accepted files found)

/-! ### Discovered files -/

/-- The order of a walk that goes into each directory before the next entry, the entries in the
order of the bytes of their names: the first names that differ decide. -/
def WalkOrder (left right : List String) : Prop :=
  left.map Text.bytes < right.map Text.bytes

theorem Workspace.wellNamed_of_node? {workspace : Workspace} {path : String} {node : FileNode}
    (tree : workspace.root.WellNamed) (found : workspace.node? path = some node) :
    node.WellNamed := by
  unfold node? at found
  split at found
  · exact tree.at? found
  · cases found

theorem discover_directory {config : Config} {workspace : Workspace} {root : String}
    {entries : List (String × FileNode)}
    (directory : workspace.node? root = some (.directory entries))
    (kept : config.ignores workspace.workingDirectory root = false) :
    discover config workspace root = .ok (FileNode.sourcesBelow config
      workspace.workingDirectory root (FileNode.sortedEntries entries)) := by
  unfold discover
  rw [kept, if_neg Bool.false_ne_true, directory]

/-- Discovery finds the files at the end of the admissible routes from a directory, in the order of
the walk and each once.  The name of the directory itself is on no route.  A file below an ignored
directory is ignored itself, and each file found can be parsed. -/
theorem discover_admissible (config : Config) (workspace : Workspace) (root : String)
    {entries : List (String × FileNode)} (tree : workspace.root.WellNamed)
    (directory : workspace.node? root = some (.directory entries))
    (kept : config.ignores workspace.workingDirectory root = false) :
    ∃ routes : List (List String),
      discover config workspace root = .ok (routes.map (Path.below root)) ∧
      (∀ names, names ∈ routes ↔ (FileNode.directory entries).HasFile names ∧
        Admissible config workspace.workingDirectory root names) ∧
      routes.Pairwise WalkOrder ∧
      (routes.map (Path.below root)).Nodup ∧
      (∀ front back, (FileNode.directory entries).HasFile (front ++ back) →
        config.ignores workspace.workingDirectory (Path.below root front) = true →
        config.ignores workspace.workingDirectory (Path.below root (front ++ back)) = true) ∧
      (∀ path ∈ routes.map (Path.below root), config.canParse path = true) ∧
      ∀ parser, NoneUnsupported (harvestDirectory parser config workspace root) := by
  have below : (FileNode.directory entries).WellNamed := Workspace.wellNamed_of_node? tree directory
  obtain ⟨routes, found, ordered, exactly⟩ : Traces root
      (FileNode.sourcesBelow config workspace.workingDirectory root
        (FileNode.sortedEntries entries))
      fun names => (FileNode.directory entries).HasFile names ∧
        Admissible config workspace.workingDirectory root names := by
    cases below with
    | directory named distinct inner =>
        exact FileNode.sourcesBelow_traces distinct root fun entry member =>
          FileNode.sourcesAt_traces (inner entry member) (named entry member) root
  have valid (names : List String) (member : names ∈ routes) : ∀ name ∈ names, Path.IsName name :=
    below.names ((exactly names).mp member).1
  have discovered := (discover_directory directory kept).trans (congrArg Except.ok found)
  have accepted : ∀ path ∈ routes.map (Path.below root), config.canParse path = true := by
    intro path member
    obtain ⟨names, listed, rfl⟩ := List.mem_map.mp member
    exact ((exactly names).mp listed).2.canParse (valid names listed)
  refine ⟨routes, discovered, exactly, ordered.imp Text.map_bytes_lt, ?_, ?_, accepted, ?_⟩
  · refine List.pairwise_map.mpr (ordered.imp_of_mem ?_)
    intro left right inLeft inRight less same
    rw [Path.below_inj (valid left inLeft) (valid right inRight) same] at less
    exact List.lt_irrefl _ less
  · intro front back reached ignored
    rw [Path.below_append]
    refine config.ignores_below ?_ ignored
    intro name member
    exact below.names reached name (List.mem_append_right front member)
  · intro parser
    refine harvestDirectory_noneUnsupported parser ?_ ?_
    · intro files listed
      cases discovered.symm.trans listed
      exact accepted
    · intro path failed
      cases discovered.symm.trans failed

/-- A package in a directory of an excluded name, with a directory of such a name, an ignored
directory and a link in it. -/
def cachedPackage : FileNode :=
  .directory
    [("pkg", .directory [("skip", .directory [("x.py", .file .empty)]), ("é.py", .file .empty)]),
      ("notes.txt", .file .empty), ("l.py", .link "notes.txt"),
      (".git", .directory [("c.py", .file .empty)]), ("b.py", .file .empty)]

def cachedWorkspace : Workspace :=
  ⟨.directory [("__pycache__", cachedPackage)], []⟩

theorem cachedWorkspace_wellNamed : cachedWorkspace.root.WellNamed := by
  have file : FileNode.WellNamed (.file .empty) := .file _
  have none (entry : String × FileNode) (member : entry ∈ []) : entry.2.WellNamed :=
    absurd member List.not_mem_nil
  have single (name : String) (valid : Path.IsName name) :
      FileNode.WellNamed (.directory [(name, .file .empty)]) :=
    .directory (by simpa using valid) (List.nodup_singleton name)
      (List.forall_mem_cons.mpr ⟨file, none⟩)
  refine .directory (by decide) (by decide) (List.forall_mem_cons.mpr ⟨?_, none⟩)
  refine .directory (by decide) (by decide) ?_
  simp only [List.forall_mem_cons]
  refine ⟨?_, file, .link _, single "c.py" (by decide), file, none⟩
  refine .directory (by decide) (by decide) ?_
  simp only [List.forall_mem_cons]
  exact ⟨single "x.py" (by decide), file, none⟩

theorem discover_admissible_cachedPackage :
    ∃ routes : List (List String),
      discover (Config.default.withIgnorePath "/__pycache__/x/../pkg/skip") cachedWorkspace
        "./__pycache__" = .ok (routes.map (Path.below "./__pycache__")) ∧
      routes.Pairwise WalkOrder ∧ ["b.py"] ∈ routes ∧ ["pkg", "é.py"] ∈ routes ∧
      ["pkg", "skip", "x.py"] ∉ routes ∧ [".git", "c.py"] ∉ routes ∧ ["l.py"] ∉ routes ∧
      ["notes.txt"] ∉ routes := by
  have directory : cachedWorkspace.node? "./__pycache__" = some cachedPackage := by rfl
  obtain ⟨routes, found, exactly, ordered, _rest⟩ := discover_admissible
    (Config.default.withIgnorePath "/__pycache__/x/../pkg/skip") cachedWorkspace "./__pycache__"
    cachedWorkspace_wellNamed directory (by decide)
  refine ⟨routes, found, ordered, ?_, ?_, ?_, ?_, ?_, ?_⟩
  · rw [exactly]
    exact ⟨⟨_, rfl⟩, ⟨"b.py", rfl, ['p', 'y'], by decide, by decide⟩, by decide, by decide⟩
  · rw [exactly]
    exact ⟨⟨_, rfl⟩, ⟨"é.py", rfl, ['p', 'y'], by decide, by decide⟩, by decide, by decide⟩
  · rw [exactly]
    exact fun reached => absurd reached.2.kept (by decide)
  · rw [exactly]
    exact fun reached => absurd reached.2.entered (by decide)
  · rw [exactly]
    rintro ⟨⟨contents, reached⟩, _admissible⟩
    cases reached
  · rw [exactly]
    rintro ⟨_reached, admissible⟩
    obtain ⟨name, last, accepted⟩ := admissible.accepted
    cases last
    obtain ⟨extension, found, accepts⟩ := accepted
    cases found
    exact absurd accepts (by decide)

end DocHarvest
