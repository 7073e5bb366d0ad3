import DocHarvest.Text.Lines

/-!
Indentation that all lines of a text share.
-/

namespace DocHarvest.Docstring

open Text (Line)

/-- The smallest indentation of the lines that are not blank; zero if all are. -/
def commonMargin (lines : List Line) : Nat :=
  ((lines.filter fun line => !Text.isBlankText line).map Text.indentation).min?.getD 0

def dedent (lines : List Line) : List Line :=
  lines.map (List.drop (commonMargin lines))

def dropBlankFirst : List Line → List Line
  | [] => []
  | first :: rest => if Text.isBlankText first then rest else first :: rest

def dropBlankLast (lines : List Line) : List Line :=
  (dropBlankFirst lines.reverse).reverse

/-- The lines of a docstring without one blank line at either end and without shared indentation. -/
def cleanLines (text : List Char) : List Line :=
  dedent (dropBlankLast (dropBlankFirst (Text.lines text)))

def clean (text : List Char) : List Char :=
  Text.unlines (cleanLines text)

/-- A line with every tab replaced by spaces up to the next multiple of eight columns. -/
def expandTabsFrom (column : Nat) : Line → Line
  | [] => []
  | character :: rest =>
      if character = '\t' then
        let width := 8 - column % 8
        List.replicate width ' ' ++ expandTabsFrom (column + width) rest
      else character :: expandTabsFrom (column + 1) rest

def expandTabs (line : Line) : Line :=
  expandTabsFrom 0 line

def dropBlankLines (lines : List Line) : List Line :=
  lines.dropWhile Text.isBlankText

/-- Lines of a string literal as its reader sees them: tabs are spaces, the first line has no
indentation, and the others lose what they share.  Blank lines at both ends are dropped. -/
def normalizeLines (lines : List Line) : List Line :=
  let aligned :=
    match lines.map expandTabs with
    | [] => []
    | first :: rest => Text.trimStart first :: dedent rest
  (dropBlankLines (dropBlankLines aligned).reverse).reverse

def normalize (text : List Char) : List Char :=
  Text.unlines (normalizeLines (Text.lines text))

end DocHarvest.Docstring
