import DocHarvest.Extract.Source
import DocHarvest.Files.Discover
import DocHarvest.Registry

/-!
Harvesting several source texts or files as one batch.

A text that cannot be read gives an empty file and a failure; the others are not affected.  Classes
of all files are resolved together and go back to the files they came from.
-/

namespace DocHarvest

open Program (Parser)

/-! ### Source texts -/

def language : String := "python"

structure SourceUnit where
  path : String
  text : String
deriving DecidableEq, Repr

namespace Batch

def add (batch : Batch) (path : String) (outcome : Except Error FileDoc) : Batch :=
  match outcome with
  | .ok file => { batch with files := batch.files ++ [file] }
  | .error error =>
      { files := batch.files ++ [.empty path]
        failures := batch.failures ++ [⟨path, error.message⟩] }

end Batch

/-- Deal classes out to files, as many to each as it had. -/
def dealOut : List FileDoc → List ClassDoc → List FileDoc
  | [], _ => []
  | file :: rest, classes =>
      { file with classes := classes.take file.classes.length } ::
        dealOut rest (classes.drop file.classes.length)

def resolveFiles (files : List FileDoc) : List FileDoc :=
  let registry := Registry.ofList (files.flatMap FileDoc.classes)
  dealOut files registry.resolve.classes

/-- The outcomes of all units, before inheritance is resolved. -/
def extractUnits (parser : Parser) (config : Config) (units : List SourceUnit) : Batch :=
  units.foldl
    (fun batch unit => batch.add unit.path (extract parser config.style unit.path unit.text))
    .empty

def harvestSources (parser : Parser) (config : Config) (units : List SourceUnit) : Batch :=
  let batch := extractUnits parser config units
  if config.resolveInheritance then { batch with files := resolveFiles batch.files } else batch

/-- Harvest one source text as a batch of its own.  A text that cannot be read gives an empty
file. -/
def harvestSource (parser : Parser) (config : Config) (path text : String) : FileDoc :=
  (harvestSources parser config [⟨path, text⟩]).files.getLast?.getD (.empty path)

/-! ### Files -/

/-- The text of a source file, after its extension and before its size have been checked. -/
def readSource (config : Config) (workspace : Workspace) (path : String) :
    Except Error String :=
  if config.canParse path then
    match workspace.readText path with
    | .error fault => .error (.unreadable path fault)
    | .ok text =>
        if config.maxFileSize < text.utf8ByteSize then .error (.tooLarge path text.utf8ByteSize)
        else .ok text
  else .error (.unsupported path)

/-- Harvest one file.  A text that cannot be parsed gives an empty result. -/
def harvestFile (parser : Parser) (config : Config) (workspace : Workspace) (path : String) :
    Except Error FileDoc :=
  (readSource config workspace path).map (harvestSource parser config path)

def readUnits (outcomes : List (String × Except Error String)) : List SourceUnit :=
  outcomes.filterMap fun (path, outcome) =>
    match outcome with
    | .ok text => some ⟨path, text⟩
    | .error _ => none

structure Unread where
  position : Nat
  path : String
  error : Error
deriving DecidableEq, Repr

/-- The paths that could not be read, where the first path has the position `start`. -/
def unreadFrom (start : Nat) : List (String × Except Error String) → List Unread
  | [] => []
  | (_, .ok _) :: rest => unreadFrom (start + 1) rest
  | (path, .error error) :: rest => ⟨start, path, error⟩ :: unreadFrom (start + 1) rest

/-- Insert an empty result at the position of a path that could not be read, and list its failure
behind the others. -/
def Batch.addUnread (batch : Batch) (unread : Unread) : Batch :=
  { files := batch.files.insertIdx unread.position (.empty unread.path)
    failures := batch.failures ++ [⟨unread.path, unread.error.message⟩] }

/-- Harvest paths of which each has been read or not.  The results of those that were not read are
inserted from the first position to the last, so that each path has its own result in its place. -/
def harvestRead (parser : Parser) (config : Config)
    (outcomes : List (String × Except Error String)) : Batch :=
  (unreadFrom 0 outcomes).foldl Batch.addUnread (harvestSources parser config (readUnits outcomes))

/-- Harvest several files as one batch.  A file that cannot be read gives an empty result and a
failure. -/
def harvestFiles (parser : Parser) (config : Config) (workspace : Workspace)
    (paths : List String) : Except Error Batch :=
  match config.validate with
  | .error error => .error error
  | .ok () =>
      .ok (harvestRead parser config
        (paths.map fun path => (path, readSource config workspace path)))

def harvestDirectory (parser : Parser) (config : Config) (workspace : Workspace)
    (path : String) : Except Error Batch :=
  match config.validate with
  | .error error => .error error
  | .ok () =>
      match discover config workspace path with
      | .error error => .error error
      | .ok paths => harvestFiles parser config workspace paths

end DocHarvest
