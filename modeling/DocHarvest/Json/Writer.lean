import DocHarvest.Json.Value

/-!
Writing JSON values, on one line or laid out over several.
-/

namespace DocHarvest.Json

def hexDigit (value : Nat) : Char :=
  if value < 10 then Char.ofNat (value + '0'.toNat) else Char.ofNat (value - 10 + 'a'.toNat)

/-- A character as it stands inside a string: quotes, backslashes and control characters are
escaped, all else stands for itself. -/
def writeCharacter (character : Char) : List Char :=
  match character with
  | '"' => ['\\', '"']
  | '\\' => ['\\', '\\']
  | '\x08' => ['\\', 'b']
  | '\x0c' => ['\\', 'f']
  | '\n' => ['\\', 'n']
  | '\r' => ['\\', 'r']
  | '\t' => ['\\', 't']
  | _ =>
      if character.toNat < 32 then
        ['\\', 'u', '0', '0', hexDigit (character.toNat / 16), hexDigit (character.toNat % 16)]
      else [character]

def writeString (text : String) : List Char :=
  '"' :: (text.toList.flatMap writeCharacter ++ ['"'])

def writeBool (value : Bool) : List Char :=
  (if value then "true" else "false").toList

mutual

/-- A value on one line, without any blanks. -/
def compact : Json → List Char
  | .null => "null".toList
  | .bool value => writeBool value
  | .number written => written
  | .string text => writeString text
  | .unpaired => "\"\\ud800\"".toList
  | .array items => '[' :: (compactItems items ++ [']'])
  | .object members => '\x7b' :: (compactMembers members ++ ['\x7d'])

def compactItems : List Json → List Char
  | [] => []
  | [item] => compact item
  | item :: rest => compact item ++ ',' :: compactItems rest

def compactMembers : List (String × Json) → List Char
  | [] => []
  | [(key, value)] => writeString key ++ ':' :: compact value
  | (key, value) :: rest => writeString key ++ ':' :: compact value ++ ',' :: compactMembers rest

end

/-- A new line with two spaces for each level. -/
def lineAt (level : Nat) : List Char :=
  '\n' :: List.replicate (2 * level) ' '

mutual

/-- A value laid out with one item or member to a line, inside `level` brackets. -/
def pretty (level : Nat) : Json → List Char
  | .null => "null".toList
  | .bool value => writeBool value
  | .number written => written
  | .string text => writeString text
  | .unpaired => "\"\\ud800\"".toList
  | .array [] => ['[', ']']
  | .array items => '[' :: (prettyItems (level + 1) items ++ lineAt level ++ [']'])
  | .object [] => ['\x7b', '\x7d']
  | .object members => '\x7b' :: (prettyMembers (level + 1) members ++ lineAt level ++ ['\x7d'])

def prettyItems (level : Nat) : List Json → List Char
  | [] => []
  | [item] => lineAt level ++ pretty level item
  | item :: rest => lineAt level ++ pretty level item ++ ',' :: prettyItems level rest

def prettyMembers (level : Nat) : List (String × Json) → List Char
  | [] => []
  | [(key, value)] => lineAt level ++ writeString key ++ ':' :: ' ' :: pretty level value
  | (key, value) :: rest =>
      lineAt level ++ writeString key ++ ':' :: ' ' :: pretty level value ++
        ',' :: prettyMembers level rest

end

def toCompact (value : Json) : String :=
  String.ofList value.compact

def toPretty (value : Json) : String :=
  String.ofList (value.pretty 0)

end DocHarvest.Json
