import DocHarvest.Text.Identifier
import DocHarvest.Program.Kind

/-!
Terminals that are recognised by their spelling alone.

Of the terminals admitted at a place the longest match is taken.  A word is read as a keyword
only where that keyword is admitted, and as a name elsewhere.
-/

namespace DocHarvest.Program

namespace Lexicon

def isSeparator (character : Char) : Bool :=
  character == ' ' || character == '\t' || character == '\n' || character == '\r' ||
    character == '\x0c' || character == '\uFEFF' || character == '\u2060' || character == '\u200B'

/-! ### Numbers -/

/-- The length of the longest beginning made of digits, where a single underscore may stand before
a digit. -/
def underscoredDigits (isDigit : Char → Bool) : List Char → Nat
  | '_' :: character :: rest =>
      if isDigit character then 2 + underscoredDigits isDigit rest else 0
  | character :: rest =>
      if isDigit character then 1 + underscoredDigits isDigit rest else 0
  | [] => 0

/-- The length of the longest beginning made of decimal digits, where a single underscore may
stand after a digit. -/
def decimalRun (afterDigit : Bool) : List Char → Nat
  | character :: rest =>
      if character.isDigit then 1 + decimalRun true rest
      else if character == '_' && afterDigit then 1 + decimalRun false rest
      else 0
  | [] => 0

def decimalDigits (text : List Char) : Nat :=
  decimalRun false text

def isHexDigit (character : Char) : Bool :=
  character.isDigit || ('a' ≤ character && character ≤ 'f') || ('A' ≤ character && character ≤ 'F')

def isOctalDigit (character : Char) : Bool :=
  '0' ≤ character && character ≤ '7'

def isBinaryDigit (character : Char) : Bool :=
  character == '0' || character == '1'

/-- One more if the text goes on with one of some characters. -/
def extendedBy (characters : List Char) (length : Nat) (text : List Char) : Nat :=
  match text.drop length with
  | character :: _ => if characters.contains character then length + 1 else length
  | [] => length

/-- The length of an integer with a mark for its base. -/
def basedLength (isDigit : Char → Bool) (text : List Char) : Nat :=
  let digits := underscoredDigits isDigit (text.drop 2)
  if digits == 0 then 0 else extendedBy ['L', 'l'] (2 + digits) text

/-- The length of the integer at the beginning of a text; zero if there is none. -/
def integerLength (text : List Char) : Nat :=
  let decimal := decimalDigits text
  let plain := if decimal == 0 then 0 else extendedBy ['L', 'l', 'J', 'j'] decimal text
  let based :=
    match text with
    | '0' :: mark :: _ =>
        if mark == 'x' || mark == 'X' then basedLength isHexDigit text
        else if mark == 'o' || mark == 'O' then basedLength isOctalDigit text
        else if mark == 'b' || mark == 'B' then basedLength isBinaryDigit text
        else 0
    | _ => 0
  max plain based

def exponentLength (text : List Char) : Nat :=
  match text with
  | mark :: rest =>
      if mark == 'e' || mark == 'E' then
        let sign :=
          match rest with
          | '+' :: _ | '-' :: _ => 1
          | _ => 0
        let digits := decimalDigits (rest.drop sign)
        if digits == 0 then 0 else 1 + sign + digits
      else 0
  | [] => 0

def floatLength (text : List Char) : Nat :=
  let whole := decimalDigits text
  let length :=
    match text.drop whole with
    | '.' :: rest =>
        let fraction := decimalDigits rest
        if whole == 0 && fraction == 0 then 0
        else
          let mantissa := whole + 1 + fraction
          mantissa + exponentLength (text.drop mantissa)
    | rest =>
        let exponent := exponentLength rest
        if whole == 0 || exponent == 0 then 0 else whole + exponent
  if length == 0 then 0 else extendedBy ['J', 'j'] length text

/-! ### Escapes, comments and the rest -/

/-- Whether a character may stand where any but a few may.  A zero character never may. -/
def isOtherThan (excluded : List Char) (character : Char) : Bool :=
  character.toNat != 0 && !excluded.contains character

def beginsWith (isMember : Char → Bool) (count : Nat) (text : List Char) : Bool :=
  (text.take count).length == count && (text.take count).all isMember

def escapeLength : List Char → Nat
  | '\\' :: mark :: rest =>
      if mark == 'u' then if beginsWith isHexDigit 4 rest then 6 else 0
      else if mark == 'U' then if beginsWith isHexDigit 8 rest then 10 else 0
      else if mark == 'x' then if beginsWith isHexDigit 2 rest then 4 else 0
      else if mark.isDigit then if beginsWith Char.isDigit 2 rest then 4 else 0
      else if mark == '\n' then 2
      else if mark == '\r' then if rest.head? == some '\n' then 3 else 0
      else if mark == 'N' then
        match rest with
        | '\x7b' :: name =>
            let length := (name.takeWhile (isOtherThan ['\x7d'])).length
            if length != 0 && name[length]? == some '\x7d' then length + 4 else 0
        | _ => 0
      else if "'\"abfrntv\\".toList.contains mark then 2
      else 0
  | _ => 0

def commentLength : List Char → Nat
  | '#' :: rest => 1 + (rest.takeWhile (isOtherThan ['\n'])).length
  | _ => 0

def continuationLength : List Char → Nat
  | '\\' :: '\n' :: _ => 2
  | '\\' :: '\r' :: '\n' :: _ => 3
  | '\\' :: character :: _ => if character.toNat == 0 then 2 else 0
  | _ => 0

def conversionLength : List Char → Nat
  | '!' :: letter :: _ => if 'a' ≤ letter && letter ≤ 'z' then 2 else 0
  | _ => 0

def formatTextLength (text : List Char) : Nat :=
  (text.takeWhile (isOtherThan ['\x7b', '\x7d', '\n'])).length

def spellingLength (spelling text : List Char) : Nat :=
  if spelling.isPrefixOf text then spelling.length else 0

end Lexicon

end DocHarvest.Program
