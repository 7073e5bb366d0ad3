import DocHarvest.Config
import DocHarvest.Path.Basic

/-!
A tree of files, and finding one's way in it.

Links are followed when a path leads through them.  The tree does not change.
-/

namespace DocHarvest

inductive FileNode where
  | file (contents : ByteArray)
  | directory (entries : List (String × FileNode))
  | link (target : String)

namespace FileNode

def entry? (name : String) : FileNode → Option FileNode
  | .directory entries => (entries.find? fun entry => entry.1 == name).map Prod.snd
  | _ => none

/-- The node under some names, no links followed. -/
def at? (node : FileNode) : List String → Option FileNode
  | [] => some node
  | name :: rest => (node.entry? name).bind fun inner => inner.at? rest

/-- Put a node in the place of the entry of a name, or at the end. -/
def setEntry (name : String) (node : FileNode) :
    List (String × FileNode) → List (String × FileNode)
  | [] => [(name, node)]
  | (known, old) :: rest =>
      if known == name then (name, node) :: rest else (known, old) :: setEntry name node rest

/-- Put a node under some names; directories on the way are made as needed. -/
def insert (node : FileNode) : List String → FileNode → FileNode
  | [], _ => node
  | name :: rest, place =>
      let entries :=
        match place with
        | .directory entries => entries
        | _ => []
      let inner := (place.entry? name).getD (.directory [])
      .directory (setEntry name (insert node rest inner) entries)

end FileNode

structure Workspace where
  root : FileNode
  /-- The names from the root to the working directory. -/
  workingDirectory : List String

namespace Workspace

/-- The pieces of a path that are followed one by one.  A slash at the end asks for a directory. -/
def stepsOf (path : String) : List String :=
  let pieces := (Path.pieces path).filter fun piece => piece != ""
  if path.toList.getLast? == some '/' then pieces ++ ["."] else pieces

def linkLimit : Nat := 40

/-- Follow steps from a directory that is given by its names, innermost first.  Of fuel, a step
takes one and a link takes as much as leads to its target; `links` may still be followed. -/
def follow (root : FileNode) : (fuel links : Nat) → (place steps : List String) →
    Except ReadFault (List String)
  | _, _, place, [] => .ok place
  | 0, _, _, _ => .error .tooManyLinks
  | fuel + 1, links, place, step :: rest =>
      match root.at? place.reverse with
      | some (.directory entries) =>
          if step == "." then follow root fuel links place rest
          else if step == ".." then follow root fuel links place.tail rest
          else
            match (entries.find? fun entry => entry.1 == step).map Prod.snd with
            | none => .error .notFound
            | some (.link target) =>
                if links = 0 then .error .tooManyLinks
                else if target.isEmpty then .error .notFound
                else
                  let base := if Path.isAbsolute target then [] else place
                  follow root fuel (links - 1) base (stepsOf target ++ rest)
            | some _ => follow root fuel links (step :: place) rest
      | some _ => .error .notDirectory
      | none => .error .notFound

def find (workspace : Workspace) (path : String) : Except ReadFault (List String) :=
  if path.isEmpty then .error .notFound
  else
    let base := if Path.isAbsolute path then [] else workspace.workingDirectory.reverse
    (follow workspace.root 100000 linkLimit base (stepsOf path)).map List.reverse

def node? (workspace : Workspace) (path : String) : Option FileNode :=
  match workspace.find path with
  | .ok names => workspace.root.at? names
  | .error _ => none

def readText (workspace : Workspace) (path : String) : Except ReadFault String :=
  match workspace.find path with
  | .error fault => .error fault
  | .ok names =>
      match workspace.root.at? names with
      | some (.file contents) =>
          match String.fromUTF8? contents with
          | some text => .ok text
          | none => .error .notText
      | some (.directory _) => .error .isDirectory
      | _ => .error .notFound

end Workspace

end DocHarvest
