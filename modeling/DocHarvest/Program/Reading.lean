import DocHarvest.Grammar.Reader
import DocHarvest.Program.Rules
import DocHarvest.Program.Layout
import DocHarvest.Program.Lexicon

/-!
Reading Python source into a tree.
-/

namespace DocHarvest.Program

open Grammar (TokenSet Lexeme Reader Reading Automaton Place)

def table : Grammar.Table Kind Role :=
  .ofSpecification specification

structure Vocabulary where
  marks : List (Nat × List Char)
  words : List (List Char × Nat)
  wordSet : TokenSet
  numberOf : Kind → Nat

/-- Whether a fixed spelling has the form of a name, and is told from names by the grammar alone.
The word that opens an exception handler is not: it is also the beginning of a longer mark. -/
def isWord (spelling : List Char) : Bool :=
  Text.identifierAt spelling == spelling && spelling != "except".toList

namespace Vocabulary

def ofTerminals (terminals : List Kind) : Vocabulary :=
  let spelled := terminals.zipIdx.filterMap fun (kind, index) =>
    kind.spelling?.map fun text => (index + 1, text.toList)
  let words := spelled.filter fun entry => isWord entry.2
  { marks := spelled.filter fun entry => !isWord entry.2
    words := words.map fun (number, text) => (text, number)
    wordSet := words.foldl (fun set entry => set.union (.single entry.1)) .empty
    numberOf := fun kind => terminals.findIdx (· == kind) + 1 }

end Vocabulary

def vocabulary : Vocabulary := .ofTerminals specification.terminals

/-- Numbers of the terminals that the lexer asks for one by one. -/
structure Numbers where
  identifier : Nat
  integer : Nat
  float : Nat
  comment : Nat
  lineContinuation : Nat
  escapeSequence : Nat
  loneBackslash : Nat
  formatText : Nat
  typeConversion : Nat
  newline : Nat
  indent : Nat
  dedent : Nat
  stringStart : Nat
  stringPiece : Nat
  stringEnd : Nat
  braceEscape : Nat
  closeParenthesis : Nat
  closeBracket : Nat
  closeBrace : Nat
  exceptWord : Nat

def numbers : Numbers :=
  let number := vocabulary.numberOf
  { identifier := number .identifier
    integer := number .integer
    float := number .float
    comment := number .comment
    lineContinuation := number .lineContinuation
    escapeSequence := number .escapeSequence
    loneBackslash := number .loneBackslash
    formatText := number .formatText
    typeConversion := number .typeConversion
    newline := number .newline
    indent := number .indent
    dedent := number .dedent
    stringStart := number .stringStart
    stringPiece := number .stringPiece
    stringEnd := number .stringEnd
    braceEscape := number .braceEscape
    closeParenthesis := number (.literal ")")
    closeBracket := number (.literal "]")
    closeBrace := number (.literal "\x7d")
    exceptWord := number (.literal "except") }

def expectedLayout (valid : TokenSet) : Layout.Expected :=
  { newline := valid.contains numbers.newline
    indent := valid.contains numbers.indent
    dedent := valid.contains numbers.dedent
    stringStart := valid.contains numbers.stringStart
    stringPiece := valid.contains numbers.stringPiece
    braceEscape := valid.contains numbers.braceEscape
    closing := valid.contains numbers.closeParenthesis || valid.contains numbers.closeBracket ||
      valid.contains numbers.closeBrace
    exceptWord := valid.contains numbers.exceptWord }

def layoutNumber : Kind → Nat
  | .newline => numbers.newline
  | .indent => numbers.indent
  | .dedent => numbers.dedent
  | .stringStart => numbers.stringStart
  | .stringPiece => numbers.stringPiece
  | .stringEnd => numbers.stringEnd
  | .braceEscape => numbers.braceEscape
  | _ => 0

/-- A terminal with the number of characters before it and its length. -/
structure Spelled where
  token : Nat
  instead : Option Nat
  gap : Nat
  length : Nat

/-- The longer of two matches, the first if they are equally long. -/
def longer (best candidate : Nat × Nat) : Nat × Nat :=
  if best.2 < candidate.2 then candidate else best

/-- The longest match among terminals that may follow separators: its number and its length. -/
def longestMatch (valid : TokenSet) (immediate : Bool) (text : List Char) : Nat × Nat :=
  let tryOne := fun (number : Nat) (length : List Char → Nat) (best : Nat × Nat) =>
    if valid.contains number then longer best (number, length text) else best
  let marks := vocabulary.marks.foldl
    (fun best (number, spelling) => tryOne number (Lexicon.spellingLength spelling) best)
    (0, 0)
  let named := if valid.contains numbers.identifier || valid.bits &&& vocabulary.wordSet.bits != 0
    then longer marks (numbers.identifier, (Text.identifierAt text).length) else marks
  let patterns := tryOne numbers.integer Lexicon.integerLength named
    |> tryOne numbers.float Lexicon.floatLength
    |> tryOne numbers.comment Lexicon.commentLength
    |> tryOne numbers.lineContinuation Lexicon.continuationLength
    |> tryOne numbers.typeConversion Lexicon.conversionLength
  if immediate then tryOne numbers.loneBackslash (Lexicon.spellingLength ['\\']) patterns
  else patterns

def spelledTerminal (valid : TokenSet) (text : List Char) : Option Spelled :=
  let lineEnds := text.takeWhile (· == '\n')
  let format :=
    if valid.contains numbers.formatText then
      Lexicon.formatTextLength (text.drop lineEnds.length)
    else 0
  let escape := if valid.contains numbers.escapeSequence then Lexicon.escapeLength text else 0
  if format != 0 then some ⟨numbers.formatText, none, lineEnds.length, format⟩
  else if escape != 0 then some ⟨numbers.escapeSequence, none, 0, escape⟩
  else
    let gap := (text.takeWhile Lexicon.isSeparator).length
    let rest := text.drop gap
    if rest.isEmpty then if valid.contains 0 then some ⟨0, none, gap, 0⟩ else none
    else
      let (token, length) := longestMatch valid (gap == 0) rest
      if length == 0 then none
      else if token == numbers.identifier then
        match vocabulary.words.find? fun entry => entry.1 == rest.take length with
        | some (_, word) =>
            if valid.contains word then some ⟨word, some token, gap, length⟩
            else some ⟨token, none, gap, length⟩
        | none => some ⟨token, none, gap, length⟩
      else some ⟨token, none, gap, length⟩

/-- The next terminal out of a set.  A byte order mark at the beginning of the text is skipped. -/
def lex (layout : Layout) (valid : TokenSet) (atStart : Bool) (text : List Char) :
    Option (Lexeme Layout) :=
  let mark := if atStart then text.takeWhile (· == '\uFEFF') |>.take 1 else []
  let body := text.drop mark.length
  let lexeme := fun (token : Nat) (instead : Option Nat) (gap length : Nat) (memory : Layout) =>
    ({ token
       instead
       gap := mark ++ body.take gap
       text := (body.drop gap).take length
       rest := body.drop (gap + length)
       memory } : Lexeme Layout)
  match layout.scan (expectedLayout valid) body with
  | some found =>
      some (lexeme (layoutNumber found.kind) none found.gap found.length found.layout)
  | none =>
      (spelledTerminal valid body).map fun found =>
        lexeme found.token found.instead found.gap found.length layout

def reader : Reader Kind Role Layout :=
  { table
    hidden := Kind.isHidden
    contextual := fun kind => kind == .formatText || kind == .escapeSequence || kind == .loneBackslash
    memory := Layout.start
    lex }

end DocHarvest.Program
