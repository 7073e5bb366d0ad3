import DocHarvest.Text.Lines

/-!
The values of string literals.
-/

namespace DocHarvest.Extract

def isHexadecimal (character : Char) : Bool :=
  character.isDigit || ('a' ≤ character && character ≤ 'f') || ('A' ≤ character && character ≤ 'F')

def hexadecimalValue (character : Char) : Nat :=
  if character.isDigit then character.toNat - '0'.toNat
  else if 'a' ≤ character then character.toNat - 'a'.toNat + 10
  else character.toNat - 'A'.toNat + 10

def hexadecimal (digits : List Char) : Nat :=
  digits.foldl (fun value digit => 16 * value + hexadecimalValue digit) 0

def escapedCharacter? : Char → Option Char
  | 'n' => some '\n'
  | 't' => some '\t'
  | 'r' => some '\r'
  | '\\' => some '\\'
  | '\'' => some '\''
  | '"' => some '"'
  | 'a' => some '\x07'
  | 'b' => some '\x08'
  | 'f' => some '\x0c'
  | 'v' => some '\x0b'
  | _ => none

def escapeWidth? : Char → Option Nat
  | 'x' => some 2
  | 'u' => some 4
  | 'U' => some 8
  | _ => none

def characterOfCode? (code : Nat) : Option Char :=
  if code.isValidChar then some (Char.ofNat code) else none

/-- The characters of a numeric escape with the digits that follow it.  If there are not enough of
them, or they are no code point, the escape stands for itself. -/
def numericEscape (letter : Char) (width : Nat) (digits : List Char) : List Char :=
  let decoded :=
    if digits.length = width then characterOfCode? (hexadecimal digits) else none
  match decoded with
  | some character => [character]
  | none => '\\' :: letter :: digits

/-- Replace escapes by what they stand for; the first `skip` characters are dropped. -/
def unescapeFrom : (skip : Nat) → List Char → List Char
  | _, [] => []
  | skip + 1, _ :: rest => unescapeFrom skip rest
  | 0, '\\' :: rest =>
      match rest with
      | [] => ['\\']
      | letter :: after =>
          match escapeWidth? letter with
          | some width =>
              let digits := (after.take width).takeWhile isHexadecimal
              numericEscape letter width digits ++ unescapeFrom (1 + digits.length) rest
          | none =>
              match escapedCharacter? letter with
              | some character => character :: unescapeFrom 1 rest
              | none =>
                  if letter = '\n' then unescapeFrom 1 rest
                  else '\\' :: letter :: unescapeFrom 1 rest
  | 0, character :: rest => character :: unescapeFrom 0 rest

def unescape (body : List Char) : List Char :=
  unescapeFrom 0 body

/-- The delimiters of a literal, longest first. -/
def delimiters : List (List Char) :=
  [['"', '"', '"'], ['\'', '\'', '\''], ['"'], ['\'']]

def between? (quoted delimiter : List Char) : Option (List Char) :=
  if 2 * delimiter.length ≤ quoted.length && delimiter.isPrefixOf quoted &&
      delimiter.isPrefixOf quoted.reverse then
    some ((quoted.drop delimiter.length).take (quoted.length - 2 * delimiter.length))
  else none

/-- The flags in front of a literal, in small letters, and the text between its quotes. -/
def splitLiteral? (literal : List Char) : Option (List Char × List Char) :=
  let isQuote := fun (character : Char) => character == '"' || character == '\''
  let flags := literal.takeWhile fun character => !isQuote character
  let quoted := literal.drop flags.length
  (delimiters.findSome? (between? quoted)).map fun body => (flags.map Char.toLower, body)

/-- The value of a string literal.  Bytes and format strings have none. -/
def literalValue? (literal : List Char) : Option (List Char) :=
  (splitLiteral? (Text.trim literal)).bind fun (flags, body) =>
    if flags.contains 'b' || flags.contains 'f' then none
    else if flags.contains 'r' then some body
    else some (unescape body)

end DocHarvest.Extract
