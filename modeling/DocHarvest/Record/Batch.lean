import DocHarvest.Record.Class
import DocHarvest.Path.Basic

/-!
Files, and the result of harvesting several of them.
-/

namespace DocHarvest

/-!
### Shares

A quotient of natural numbers is first rounded to a binary fraction of 53 significant bits and then
to decimals.  Both times a half goes to the even neighbour.
-/

namespace Decimal

/-- A quotient rounded to a natural number, a half to the even neighbour. -/
def roundDiv (numerator denominator : Nat) : Nat :=
  let quotient := numerator / denominator
  let remainder := numerator % denominator
  if denominator < 2 * remainder || (2 * remainder = denominator && quotient % 2 = 1) then
    quotient + 1
  else quotient

structure BinaryFraction where
  significand : Nat
  /-- The exponent of the power of two below. -/
  places : Nat
deriving DecidableEq, Repr

/-- The binary fraction of 53 significant bits nearest to a quotient that is at most one. -/
def nearestBinary (numerator denominator : Nat) : BinaryFraction :=
  let places := 52 + denominator.log2 - numerator.log2
  let places :=
    if numerator * Nat.pow 2 places / denominator < Nat.pow 2 52 then places + 1 else places
  ⟨roundDiv (numerator * Nat.pow 2 places) denominator, places⟩

def paddedDigits (places value : Nat) : List Char :=
  let digits := Nat.toDigits 10 value
  List.replicate (places - digits.length) '0' ++ digits

def BinaryFraction.toFixed (fraction : BinaryFraction) (decimals : Nat) : String :=
  let unit := Nat.pow 10 decimals
  let scaled := roundDiv (fraction.significand * unit) (Nat.pow 2 fraction.places)
  String.ofList (Nat.toDigits 10 (scaled / unit) ++ '.' :: paddedDigits decimals (scaled % unit))

/-- A share of a whole with a fixed number of decimals.  No share of nothing is zero. -/
def share (decimals part whole : Nat) : String :=
  if part = 0 || whole = 0 then BinaryFraction.toFixed ⟨0, 0⟩ decimals
  else (nearestBinary part whole).toFixed decimals

end Decimal

/-!
### Files and batches

The paths in the records are those in UTF-8; no record with another path can be written as JSON.
-/

structure FileDoc where
  path : String
  moduleDocstring : Option Docstring
  functions : List FunctionDoc
  classes : List ClassDoc
deriving DecidableEq, Repr

namespace FileDoc

def empty (path : String) : FileDoc :=
  { path
    moduleDocstring := none
    functions := []
    classes := [] }

def isEmpty (file : FileDoc) : Bool :=
  file.moduleDocstring.isNone && file.functions.isEmpty && file.classes.isEmpty

def function? (file : FileDoc) (name : String) : Option FunctionDoc :=
  file.functions.find? fun function => function.name == name

def class? (file : FileDoc) (name : String) : Option ClassDoc :=
  file.classes.find? fun record => record.name == name

/-- The number of functions and declared methods. -/
def functionCount (file : FileDoc) : Nat :=
  file.functions.length + (file.classes.flatMap ClassDoc.methods).length

end FileDoc

structure Failure where
  path : String
  message : String
deriving DecidableEq, Repr

structure Batch where
  /-- One result for each input, in the order of the inputs. -/
  files : List FileDoc
  failures : List Failure
deriving DecidableEq, Repr

namespace Batch

def empty : Batch := ⟨[], []⟩

def file? (batch : Batch) (path : String) : Option FileDoc :=
  batch.files.find? fun file => Path.same file.path path

def isFailed (batch : Batch) (path : String) : Bool :=
  batch.failures.any fun failure => Path.same failure.path path

/-- The number of functions of all files, methods not counted. -/
def totalFunctions (batch : Batch) : Nat :=
  (batch.files.flatMap FileDoc.functions).length

def totalClasses (batch : Batch) : Nat :=
  (batch.files.flatMap FileDoc.classes).length

def successRate (batch : Batch) : String :=
  Decimal.share 6 (batch.files.length - batch.failures.length) batch.files.length

end Batch

end DocHarvest
