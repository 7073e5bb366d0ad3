import DocHarvest.Config
import DocHarvest.Files.Tree

/-!
The source files below a place.

Directories are walked depth first, their entries in the order of their names.  Links below the
place are neither followed nor listed.
-/

namespace DocHarvest

def nameBefore (left right : String) : Bool :=
  !(right < left)

def isSourceFile (config : Config) (path : String) : Bool :=
  (Path.extension? path).any config.acceptsExtension

namespace FileNode

def insertSorted (entry : String × FileNode) :
    List (String × FileNode) → List (String × FileNode)
  | [] => [entry]
  | other :: rest =>
      if nameBefore entry.1 other.1 then entry :: other :: rest
      else other :: insertSorted entry rest

mutual

/-- The same tree with the entries of every directory in the order of their names. -/
def sorted : FileNode → FileNode
  | .file contents => .file contents
  | .link target => .link target
  | .directory entries => .directory (sortedEntries entries)

def sortedEntries : List (String × FileNode) → List (String × FileNode)
  | [] => []
  | (name, node) :: rest => insertSorted (name, sorted node) (sortedEntries rest)

end

mutual

/-- The source files at or below an entry of a directory. -/
def sourcesAt (config : Config) (workingDirectory : List String) (name path : String) :
    FileNode → List String
  | .link _ => []
  | .file _ =>
      if config.ignores workingDirectory path then []
      else if isSourceFile config path then [path] else []
  | .directory entries =>
      if config.ignores workingDirectory path || config.excludesDir name then []
      else sourcesBelow config workingDirectory path entries

def sourcesBelow (config : Config) (workingDirectory : List String) (path : String) :
    List (String × FileNode) → List String
  | [] => []
  | (name, node) :: rest =>
      sourcesAt config workingDirectory name (Path.child path name) node ++
        sourcesBelow config workingDirectory path rest

end

end FileNode

def discover (config : Config) (workspace : Workspace) (path : String) :
    Except Error (List String) :=
  if config.ignores workspace.workingDirectory path then .ok []
  else
    match workspace.node? path with
    | some (.file _) => .ok (if isSourceFile config path then [path] else [])
    | some (.directory entries) =>
        .ok (FileNode.sourcesBelow config workspace.workingDirectory path
          (FileNode.sortedEntries entries))
    | _ => .error (.unwalkable path "no such file or directory")

end DocHarvest
