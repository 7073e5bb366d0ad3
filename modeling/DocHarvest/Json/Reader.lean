import DocHarvest.Json.Value

/-!
Reading JSON text.

The reader is strict: one value with blanks around it, no control characters inside strings, no
comments, no trailing commas.
-/

namespace DocHarvest.Json

def isSpace (character : Char) : Bool :=
  character == ' ' || character == '\t' || character == '\n' || character == '\r'

def skipSpaces (text : List Char) : List Char :=
  text.dropWhile isSpace

/-! ### Strings -/

def hexValue? (character : Char) : Option Nat :=
  if '0' ≤ character && character ≤ '9' then some (character.toNat - '0'.toNat)
  else if 'a' ≤ character && character ≤ 'f' then some (character.toNat - 'a'.toNat + 10)
  else if 'A' ≤ character && character ≤ 'F' then some (character.toNat - 'A'.toNat + 10)
  else none

def hexUnit? (first second third fourth : Char) : Option Nat := do
  let a ← hexValue? first
  let b ← hexValue? second
  let c ← hexValue? third
  let d ← hexValue? fourth
  some (4096 * a + 256 * b + 16 * c + d)

def isHighSurrogate (unit : Nat) : Bool := 0xD800 ≤ unit && unit < 0xDC00

def isLowSurrogate (unit : Nat) : Bool := 0xDC00 ≤ unit && unit < 0xE000

def joinSurrogates (high low : Nat) : Char :=
  Char.ofNat (0x10000 + 0x400 * (high - 0xD800) + (low - 0xDC00))

/-- The characters of a string; there are none if a surrogate has no partner. -/
abbrev Content := Option (List Char)

def push (character : Char) (read : Option (Content × List Char)) : Option (Content × List Char) :=
  read.map fun (content, rest) => (content.map (character :: ·), rest)

def simpleEscape? : Char → Option Char
  | '"' => some '"'
  | '\\' => some '\\'
  | '/' => some '/'
  | 'b' => some '\x08'
  | 'f' => some '\x0c'
  | 'n' => some '\n'
  | 'r' => some '\r'
  | 't' => some '\t'
  | _ => none

/-- The rest of a string after its opening quote. -/
def readContent : List Char → Option (Content × List Char)
  | [] => none
  | '"' :: rest => some (some [], rest)
  | '\\' :: 'u' :: a :: b :: c :: d :: '\\' :: 'u' :: e :: f :: g :: h :: rest =>
      match hexUnit? a b c d with
      | none => none
      | some unit =>
          match hexUnit? e f g h with
          | some next =>
              if isHighSurrogate unit && isLowSurrogate next then
                push (joinSurrogates unit next) (readContent rest)
              else
                let after := readContent ('\\' :: 'u' :: e :: f :: g :: h :: rest)
                if isHighSurrogate unit || isLowSurrogate unit then
                  after.map fun (_, rest) => (none, rest)
                else push (Char.ofNat unit) after
          | none => none
  | '\\' :: 'u' :: a :: b :: c :: d :: rest =>
      match hexUnit? a b c d with
      | none => none
      | some unit =>
          if isHighSurrogate unit || isLowSurrogate unit then
            (readContent rest).map fun (_, rest) => (none, rest)
          else push (Char.ofNat unit) (readContent rest)
  | '\\' :: letter :: rest =>
      match simpleEscape? letter with
      | some character => push character (readContent rest)
      | none => none
  | character :: rest =>
      if character.toNat < 32 || character == '\\' then none
      else push character (readContent rest)
termination_by text => text.length

/-! ### Numbers -/

def takeDigits (text : List Char) : Option (List Char × List Char) :=
  let digits := text.takeWhile Char.isDigit
  if digits.isEmpty then none else some (digits, text.dropWhile Char.isDigit)

/-- The whole part of a number: a zero, or digits that do not begin with one. -/
def readWhole : List Char → Option (List Char × List Char)
  | '0' :: rest => some (['0'], rest)
  | text => takeDigits text

def readFraction : List Char → Option (List Char × List Char)
  | '.' :: rest => (takeDigits rest).map fun (digits, rest) => ('.' :: digits, rest)
  | text => some ([], text)

def readExponent : List Char → Option (List Char × List Char)
  | mark :: rest =>
      if mark == 'e' || mark == 'E' then
        match rest with
        | sign :: digits =>
            if sign == '+' || sign == '-' then
              (takeDigits digits).map fun (digits, rest) => (mark :: sign :: digits, rest)
            else (takeDigits (sign :: digits)).map fun (digits, rest) => (mark :: digits, rest)
        | [] => none
      else some ([], mark :: rest)
  | [] => some ([], [])

def readNumber (text : List Char) : Option (List Char × List Char) := do
  let (sign, unsigned) :=
    match text with
    | '-' :: rest => (['-'], rest)
    | text => ([], text)
  let (whole, rest) ← readWhole unsigned
  let (fraction, rest) ← readFraction rest
  let (exponent, rest) ← readExponent rest
  some (sign ++ whole ++ fraction ++ exponent, rest)

def readWord (word : List Char) (value : Json) (text : List Char) : Option (Json × List Char) :=
  if word.isPrefixOf text then some (value, text.drop word.length) else none

/-! ### Values -/

def ofContent : Content → Json
  | some characters => .string (String.ofList characters)
  | none => .unpaired

/-- A member with the characters of its key, if they make a text. -/
def memberOf? (member : Content × Json) : Option (String × Json) :=
  member.1.map fun characters => (String.ofList characters, member.2)

def ofMembers (members : List (Content × Json)) : Json :=
  match members.mapM memberOf? with
  | some members => .object members
  | none => .unpaired

mutual

/-- Read a value, with fuel for each character. -/
def readValue : (fuel : Nat) → List Char → Option (Json × List Char)
  | 0, _ => none
  | fuel + 1, text =>
      match skipSpaces text with
      | [] => none
      | '"' :: rest =>
          (readContent rest).map fun (content, rest) => (ofContent content, rest)
      | '[' :: rest =>
          match skipSpaces rest with
          | ']' :: rest => some (.array [], rest)
          | text => (readItems fuel text).map fun (items, rest) => (.array items, rest)
      | '\x7b' :: rest =>
          match skipSpaces rest with
          | '\x7d' :: rest => some (.object [], rest)
          | text => (readMembers fuel text).map fun (members, rest) => (ofMembers members, rest)
      | 'n' :: rest => readWord "null".toList .null ('n' :: rest)
      | 't' :: rest => readWord "true".toList (.bool true) ('t' :: rest)
      | 'f' :: rest => readWord "false".toList (.bool false) ('f' :: rest)
      | text => (readNumber text).map fun (written, rest) => (.number written, rest)

def readItems : (fuel : Nat) → List Char → Option (List Json × List Char)
  | 0, _ => none
  | fuel + 1, text =>
      match readValue fuel text with
      | none => none
      | some (item, rest) =>
          match skipSpaces rest with
          | ']' :: rest => some ([item], rest)
          | ',' :: rest => (readItems fuel rest).map fun (items, rest) => (item :: items, rest)
          | _ => none

def readMembers : (fuel : Nat) → List Char → Option (List (Content × Json) × List Char)
  | 0, _ => none
  | fuel + 1, text =>
      match skipSpaces text with
      | '"' :: rest =>
          match readContent rest with
          | some (key, rest) =>
              match skipSpaces rest with
              | ':' :: rest =>
                  match readValue fuel rest with
                  | none => none
                  | some (value, rest) =>
                      match skipSpaces rest with
                      | '\x7d' :: rest => some ([(key, value)], rest)
                      | ',' :: rest =>
                          (readMembers fuel rest).map fun (members, rest) =>
                            ((key, value) :: members, rest)
                      | _ => none
              | _ => none
          | _ => none
      | _ => none

end

/-- Read a text that holds one value. -/
def parse? (text : List Char) : Option Json :=
  match readValue (2 * text.length + 2) text with
  | some (value, rest) => if (skipSpaces rest).isEmpty then some value else none
  | none => none

def ofText? (text : String) : Option Json :=
  parse? text.toList

end DocHarvest.Json
