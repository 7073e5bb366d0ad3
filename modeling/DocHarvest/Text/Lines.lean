/-!
Texts: blank characters, and the ways to strip a text, to collapse it and to cut it in pieces.

A character is blank if it has the property `White_Space`.  Text is a list of characters here, so
that each operation is a recursion on the text.
-/

namespace DocHarvest.Text

/-! ### Blank characters -/

/-- The property `White_Space`. -/
def isBlank (character : Char) : Bool :=
  let code := character.toNat
  (0x09 ≤ code && code ≤ 0x0D) || code == 0x20 || code == 0x85 || code == 0xA0 ||
    code == 0x1680 || (0x2000 ≤ code && code ≤ 0x200A) || code == 0x2028 || code == 0x2029 ||
    code == 0x202F || code == 0x205F || code == 0x3000

def trimStart (text : List Char) : List Char :=
  text.dropWhile isBlank

def trimEnd (text : List Char) : List Char :=
  (text.reverse.dropWhile isBlank).reverse

def trim (text : List Char) : List Char :=
  trimEnd (trimStart text)

/-- Whether nothing but blank characters stand in a text. -/
def isBlankText (text : List Char) : Bool :=
  text.all isBlank

/-- The maximal runs of characters that are not blank, with a word under way. -/
def wordsFrom (word : List Char) : List Char → List (List Char)
  | [] => if word.isEmpty then [] else [word.reverse]
  | character :: rest =>
      if isBlank character then
        if word.isEmpty then wordsFrom [] rest else word.reverse :: wordsFrom [] rest
      else wordsFrom (character :: word) rest

def words (text : List Char) : List (List Char) :=
  wordsFrom [] text

def join (separator : List Char) (pieces : List (List Char)) : List Char :=
  List.intercalate separator pieces

/-- Replace every run of blank characters by one space, and drop those at the ends. -/
def collapse (text : List Char) : List Char :=
  join [' '] (words text)

def indentation (text : List Char) : Nat :=
  (text.takeWhile isBlank).length

/-! ### Lines and other pieces -/

abbrev Line := List Char

/-- A line given backwards, without a carriage return at its end, read forwards. -/
def finishLine : List Char → Line
  | '\r' :: rest => rest.reverse
  | line => line.reverse

/-- The lines of a text after some characters of the first line, which are given backwards. -/
def linesFrom (line : List Char) : List Char → List Line
  | [] => if line.isEmpty then [] else [line.reverse]
  | character :: rest =>
      if character = '\n' then finishLine line :: linesFrom [] rest
      else linesFrom (character :: line) rest

/-- The lines of a text.  A line ends with a newline, of which a carriage return before it is a
part; the text after the last newline is a line unless it is empty. -/
def lines (text : List Char) : List Line :=
  linesFrom [] text

def unlines (lines : List Line) : List Char :=
  join ['\n'] lines

def splitOnce (separator : List Char) : List Char → Option (List Char × List Char)
  | [] => if separator.isEmpty then some ([], []) else none
  | character :: rest =>
      if separator.isPrefixOf (character :: rest) then
        some ([], (character :: rest).drop separator.length)
      else (splitOnce separator rest).map fun (before, after) => (character :: before, after)

def withoutLast (character : Char) (text : List Char) : Option (List Char) :=
  match text.reverse with
  | last :: before => if last = character then some before.reverse else none
  | [] => none

def nonBlank (text : List Char) : Option (List Char) :=
  let stripped := trim text
  if stripped.isEmpty then none else some stripped

/-- Fragments of a description, stripped and joined by single spaces; blank ones are left out. -/
def joinFragments (fragments : List (List Char)) : List Char :=
  join [' '] (fragments.filterMap nonBlank)

/-- Small letters for capital ones, as far as words of ASCII letters can tell: those of ASCII, and
the Kelvin sign. -/
def lowerLetter (character : Char) : Char :=
  if character = '\u212A' then 'k' else character.toLower

def lower (text : List Char) : List Char :=
  text.map lowerLetter

/-- Lines cut before each line that `head` accepts: the lines before the first such line, and each
accepted line with the lines that follow it. -/
def groups {α : Type} (head : Line → Option α) : List Line → List Line × List (α × List Line)
  | [] => ([], [])
  | line :: rest =>
      let (before, found) := groups head rest
      match head line with
      | some accepted => ([], (accepted, before) :: found)
      | none => (line :: before, found)

end DocHarvest.Text
