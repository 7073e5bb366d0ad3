/-!
File paths, taken apart without looking at any file.

A path is a text, so only paths that are well-formed in UTF-8 have a counterpart here: a name made
of other bytes has none, neither in a tree of files nor in a configuration or a record.  Two paths
are the same if their components are: empty components do not count, nor does a dot, except at the
very beginning.
-/

namespace DocHarvest.Path

inductive Component where
  | root
  | current
  | parent
  | name (text : String)
deriving DecidableEq, Repr

/-- The pieces of a path between slashes, with a piece under way given backwards. -/
def piecesFrom (piece : List Char) : List Char → List String
  | [] => [String.ofList piece.reverse]
  | character :: rest =>
      if character = '/' then String.ofList piece.reverse :: piecesFrom [] rest
      else piecesFrom (character :: piece) rest

/-- The pieces of a path between slashes, empty ones included. -/
def pieces (path : String) : List String :=
  piecesFrom [] path.toList

def isAbsolute (path : String) : Bool :=
  path.toList.head? == some '/'

def laterComponents (pieces : List String) : List Component :=
  pieces.filterMap fun piece =>
    if piece == "" || piece == "." then none
    else if piece == ".." then some .parent
    else some (.name piece)

def components (path : String) : List Component :=
  let later := laterComponents (pieces path)
  if isAbsolute path then .root :: later
  else if (pieces path).head? == some "." then .current :: later
  else later

def same (left right : String) : Bool :=
  components left == components right

/-- The part of a name after its last dot.  A dot at the beginning of the name does not count. -/
def extensionOfName (name : List Char) : Option (List Char) :=
  let tail := name.reverse.takeWhile (· != '.')
  match name.reverse.drop tail.length with
  | _ :: _ :: _ => some tail.reverse
  | _ => none

/-- The extension of the last component, if that is a name. -/
def extension? (path : String) : Option String :=
  match (components path).getLast? with
  | some (.name name) => (extensionOfName name.toList).map String.ofList
  | _ => none

def child (directory name : String) : String :=
  if directory.isEmpty then name
  else if directory.toList.getLast? == some '/' then directory ++ name
  else directory ++ "/" ++ name

/-- Follow components from a place, which is given by its names, innermost first.  The parent of
the root is the root. -/
def descend (place : List String) : List Component → List String
  | [] => place
  | .root :: rest => descend [] rest
  | .current :: rest => descend place rest
  | .parent :: rest => descend place.tail rest
  | .name text :: rest => descend (text :: place) rest

/-- The names from the root to the place of a path, as seen from a working directory, by spelling
alone. -/
def location (workingDirectory : List String) (path : String) : List String :=
  (descend workingDirectory.reverse (components path)).reverse

end DocHarvest.Path
