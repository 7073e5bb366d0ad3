import DocHarvest.Program.Kind

/-!
Terminals that depend on the layout of the text: ends of lines, changes of indentation, and the
parts of string literals.

The scanner remembers the indentations of the open blocks and the delimiters of the open string
literals.  What it looks for depends on what the grammar admits at the place, so a line end
inside brackets is no terminal, and a quote inside a string ends it.
-/

namespace DocHarvest.Program

structure Delimiter where
  quote : Char
  raw : Bool
  format : Bool
  bytes : Bool
  triple : Bool
deriving DecidableEq, Repr

structure Layout where
  /-- Indentations of the open blocks, innermost first. -/
  indents : List Nat
  delimiters : List Delimiter
  /-- Whether the literal opened last is a format string that is still open. -/
  insideFormat : Bool
deriving DecidableEq, Repr

namespace Layout

def start : Layout := ⟨[0], [], false⟩

structure Expected where
  newline : Bool
  indent : Bool
  dedent : Bool
  stringStart : Bool
  stringPiece : Bool
  braceEscape : Bool
  closing : Bool
  exceptWord : Bool
deriving Repr

namespace Expected

/-- Everything is admitted: the place of an error. -/
def everything (expected : Expected) : Bool :=
  expected.stringPiece && expected.indent

/-- A comment on its own line matters to the layout. -/
def minding (expected : Expected) : Bool :=
  expected.indent || expected.dedent || expected.newline || expected.exceptWord

end Expected

/-- A terminal that the scanner found: the characters before it, its own, and the new memory. -/
structure Found where
  kind : Kind
  gap : Nat
  length : Nat
  layout : Layout
deriving Repr

inductive Answer where
  | found (terminal : Found)
  /-- There is no layout terminal here. -/
  | nothing
  /-- There is none of the kind looked for; look for others after so many characters. -/
  | onward (consumed : Nat)

/-! ### String literals -/

def scanBraceEscape (layout : Layout) (delimiter : Delimiter) : List Char → Answer
  | first :: second :: _ =>
      if delimiter.format && (first == '\x7b' || first == '\x7d') then
        if first == second then .found ⟨.braceEscape, 0, 2, layout⟩ else .nothing
      else .onward 0
  | [first] =>
      if delimiter.format && (first == '\x7b' || first == '\x7d') then .nothing else .onward 0
  | [] => .onward 0

/-- The characters that a backslash takes along in a raw literal, itself included. -/
def rawEscapeLength (delimiter : Delimiter) (afterBackslash : List Char) : Nat :=
  let (quoted, rest) :=
    match afterBackslash with
    | character :: rest =>
        if character == delimiter.quote || character == '\\' then (1, rest) else (0, afterBackslash)
    | [] => (0, [])
  let lineEnd :=
    match rest with
    | '\r' :: '\n' :: _ => 2
    | '\r' :: _ => 1
    | '\n' :: _ => 1
    | _ => 0
  1 + quoted + lineEnd

def repeats (character : Char) : Nat → List Char → Bool
  | 0, _ => true
  | _ + 1, [] => false
  | count + 1, first :: rest => first == character && repeats character count rest

def closeLiteral (layout : Layout) : Layout :=
  { layout with delimiters := layout.delimiters.tail, insideFormat := false }

/-- A piece of the content of a literal, or its end.  The next `skip` characters belong to the
piece whatever they are; `started` tells whether the piece has content. -/
def scanPiece (layout : Layout) (delimiter : Delimiter) :
    (skip consumed : Nat) → (started : Bool) → List Char → Answer
  | _, consumed, _, [] => .onward consumed
  | skip + 1, consumed, started, _ :: rest =>
      scanPiece layout delimiter skip (consumed + 1) started rest
  | 0, consumed, started, character :: rest =>
      let piece := fun length => Answer.found ⟨.stringPiece, 0, length, layout⟩
      let pieceIfStarted := if started then piece consumed else .nothing
      if character.toNat == 0 then .onward consumed
      else if (character == '\x7b' || character == '\x7d') && delimiter.format then
        pieceIfStarted
      else if character == '\\' then
        if delimiter.raw then
          let skip := rawEscapeLength delimiter rest - 1
          scanPiece layout delimiter skip (consumed + 1) started rest
        else if delimiter.bytes then
          match rest with
          | 'N' :: _ | 'u' :: _ | 'U' :: _ =>
              scanPiece layout delimiter 2 (consumed + 1) true rest
          | _ => pieceIfStarted
        else pieceIfStarted
      else if character == delimiter.quote then
        if delimiter.triple then
          if repeats character 2 rest then
            if started then piece consumed
            else .found ⟨.stringEnd, 0, consumed + 3, layout.closeLiteral⟩
          else if repeats character 1 rest then piece (consumed + 2)
          else piece (consumed + 1)
        else if started then piece consumed
        else .found ⟨.stringEnd, 0, consumed + 1, layout.closeLiteral⟩
      else if character == '\n' && started && !delimiter.triple then .nothing
      else scanPiece layout delimiter 0 (consumed + 1) true rest

/-- The opening of a string literal after `gap` characters. -/
def scanOpening (layout : Layout) (gap : Nat) (text : List Char) : Answer :=
  let flags := text.takeWhile fun character => "fFrRbBuU".toList.contains character
  let has := fun (lower upper : Char) => flags.contains lower || flags.contains upper
  match text.drop flags.length with
  | quote :: rest =>
      if quote == '\'' || quote == '"' || quote == '\x60' then
        let triple := quote != '\x60' && repeats quote 2 rest
        let delimiter : Delimiter :=
          { quote
            raw := has 'r' 'R'
            format := has 'f' 'F'
            bytes := has 'b' 'B'
            triple }
        .found
          { kind := .stringStart
            gap
            length := flags.length + (if triple then 3 else 1)
            layout :=
              { layout with
                delimiters := delimiter :: layout.delimiters
                insideFormat := delimiter.format } }
      else .nothing
  | [] => .nothing

/-! ### Lines and indentation -/

/-- What stands between a place and the next character that is neither blank nor in a comment. -/
structure Margin where
  /-- A line ends in between, or the text does. -/
  lineEnd : Bool
  indent : Nat
  /-- The indentation of the first comment in between. -/
  comment : Option Nat
  skipped : Nat
deriving Repr

/-- Skip blank characters, escaped line ends and, where the layout minds them, comments.  There is
no margin if a comment follows on the same line, or a backslash does not end its line. -/
def marginFrom (minding : Bool) : (inComment : Bool) → Margin → List Char → Option Margin
  | _, margin, [] => some { margin with lineEnd := true, indent := 0 }
  | true, margin, character :: rest =>
      let margin := { margin with skipped := margin.skipped + 1 }
      if character == '\n' || character.toNat == 0 then
        marginFrom minding false { margin with indent := 0 } rest
      else marginFrom minding true margin rest
  | false, margin, '\\' :: rest =>
      match rest with
      | '\r' :: '\n' :: after =>
          marginFrom minding false { margin with skipped := margin.skipped + 3 } after
      | '\n' :: after =>
          marginFrom minding false { margin with skipped := margin.skipped + 2 } after
      | ['\r'] =>
          some { margin with lineEnd := true, indent := 0, skipped := margin.skipped + 2 }
      | [] => some { margin with lineEnd := true, indent := 0, skipped := margin.skipped + 1 }
      | _ => none
  | false, margin, character :: rest =>
      let next := { margin with skipped := margin.skipped + 1 }
      if character == '\n' then
        marginFrom minding false { next with lineEnd := true, indent := 0 } rest
      else if character == ' ' then
        marginFrom minding false { next with indent := margin.indent + 1 } rest
      else if character == '\r' || character == '\x0c' then
        marginFrom minding false { next with indent := 0 } rest
      else if character == '\t' then
        marginFrom minding false { next with indent := margin.indent + 8 } rest
      else if character == '#' && minding then
        if margin.lineEnd then
          marginFrom minding true { next with comment := margin.comment.or (some margin.indent) }
            rest
        else none
      else some margin

/-- Open a block.  Indentations are remembered modulo 256. -/
def openBlock (layout : Layout) (indent : Nat) : Layout :=
  { layout with indents := indent % 256 :: layout.indents }

def closeBlock (layout : Layout) : Layout :=
  { layout with indents := layout.indents.tail }

def beginsWithQuote : List Char → Bool
  | character :: _ => character == '"' || character == '\'' || character == '\x60'
  | [] => false

def scanLineEnd (layout : Layout) (expected : Expected) (margin : Margin) (after : List Char)
    (length : Nat) : Option Found :=
  let current := layout.indents.headD 0
  let commentsDone :=
    match margin.comment with
    | some indent => indent < current
    | none => true
  let mayClose := expected.dedent ||
    (!expected.newline && !(expected.stringStart && beginsWithQuote after) && !expected.closing)
  if expected.indent && current < margin.indent then
    some ⟨.indent, 0, length, layout.openBlock margin.indent⟩
  else if mayClose && margin.indent < current && !layout.insideFormat && commentsDone then
    some ⟨.dedent, 0, length, layout.closeBlock⟩
  else if expected.newline && !expected.everything then
    some ⟨.newline, 0, length, layout⟩
  else none

/-- Terminals of lines and blocks, and openings of literals, after `consumed` characters. -/
def scanMargin (layout : Layout) (expected : Expected) (consumed : Nat) (text : List Char) :
    Answer :=
  match marginFrom expected.minding false ⟨false, 0, none, 0⟩ text with
  | none => .nothing
  | some margin =>
      let after := text.drop margin.skipped
      let ended := if margin.lineEnd then scanLineEnd layout expected margin after consumed else none
      match ended with
      | some found => .found found
      | none =>
          if margin.comment.isNone && expected.stringStart then
            scanOpening layout (consumed + margin.skipped) after
          else .nothing

def scan (layout : Layout) (expected : Expected) (text : List Char) : Option Found :=
  let inLiteral : Answer :=
    match layout.delimiters with
    | delimiter :: _ =>
        if expected.everything then .onward 0
        else
          let brace := if expected.braceEscape then scanBraceEscape layout delimiter text
            else .onward 0
          match brace with
          | .onward _ =>
              if expected.stringPiece then scanPiece layout delimiter 0 0 false text else .onward 0
          | answer => answer
    | [] => .onward 0
  match inLiteral with
  | .found terminal => some terminal
  | .nothing => none
  | .onward consumed =>
      match scanMargin layout expected consumed (text.drop consumed) with
      | .found terminal => some terminal
      | _ => none

end Layout

end DocHarvest.Program
