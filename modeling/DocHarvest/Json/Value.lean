/-!
JSON values, and taking them apart.

Members keep the order in which they are written, and may repeat a key.  A number keeps the digits
it is written with, so that reading loses nothing.

A record is written as an object; members with unknown keys are passed over, and a known key may
not be repeated.  It may also be written as an array of its fields in their order.
-/

namespace DocHarvest

inductive Json where
  | null
  | bool (value : Bool)
  | number (written : List Char)
  | string (text : String)
  /-- A string with an escaped surrogate that has no partner, or an object with such a key:
  well-formed, but not made of texts. -/
  | unpaired
  | array (items : List Json)
  | object (members : List (String × Json))
deriving Repr, Inhabited

namespace Json

def ofNat (value : Nat) : Json :=
  .number (Nat.toDigits 10 value)

def ofStrings (texts : List String) : Json :=
  .array (texts.map .string)

def ofOption {α : Type} (write : α → Json) : Option α → Json
  | some value => write value
  | none => .null

/-- The value of the last member with a key. -/
def member? (key : String) : Json → Option Json
  | .object members => (members.reverse.find? fun member => member.1 == key).map Prod.snd
  | _ => none

/-! ### Taking apart -/

def text? : Json → Option String
  | .string text => some text
  | _ => none

def bool? : Json → Option Bool
  | .bool value => some value
  | _ => none

def digitsValue (digits : List Char) : Nat :=
  digits.foldl (fun value digit => 10 * value + (digit.toNat - '0'.toNat)) 0

/-- The first number that does not fit into 64 bits. -/
def countLimit : Nat := 0x10000000000000000

/-- A natural number of at most 64 bits, written with digits only. -/
def count? : Json → Option Nat
  | .number written =>
      let value := digitsValue written
      if written.all Char.isDigit && value < countLimit then some value else none
  | _ => none

def list? {α : Type} (decode : Json → Option α) : Json → Option (List α)
  | .array items => items.mapM decode
  | _ => none

def orNull? {α : Type} (decode : Json → Option α) : Json → Option (Option α)
  | .null => some none
  | value => (decode value).map some

/-- A word out of a fixed set: the word itself, or an object with the word as its only key and null
under it. -/
def word? {α : Type} (ofWord : String → Option α) : Json → Option α
  | .string word => ofWord word
  | .object [(word, .null)] => ofWord word
  | _ => none

structure Fields where
  values : List (String × Json)
  /-- Written as an array: the fields that are missing are the last ones. -/
  positional : Bool

def fields? (names : List String) : Json → Option Fields
  | .object members =>
      let known := members.filter fun member => names.contains member.1
      if (known.map Prod.fst).Nodup then some ⟨known, false⟩ else none
  | .array items =>
      if items.length ≤ names.length then some ⟨names.zip items, true⟩ else none
  | _ => none

namespace Fields

def get? (fields : Fields) (name : String) : Option Json :=
  (fields.values.find? fun field => field.1 == name).map Prod.snd

def required {α : Type} (fields : Fields) (name : String) (decode : Json → Option α) : Option α :=
  (fields.get? name).bind decode

/-- A field that has a value of its own when it is not written. -/
def defaulted {α : Type} (fields : Fields) (name : String) (decode : Json → Option α)
    (default : α) : Option α :=
  match fields.get? name with
  | some value => decode value
  | none => some default

/-- A field that may be null, and may be missing from an object. -/
def nullable {α : Type} (fields : Fields) (name : String) (decode : Json → Option α) :
    Option (Option α) :=
  match fields.get? name with
  | some value => orNull? decode value
  | none => if fields.positional then none else some none

end Fields

end Json

end DocHarvest
