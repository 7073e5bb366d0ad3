import DocHarvest.Program.Reading

/-!
The parser of Python source.

A text that cannot be read gives a tree that holds nothing but a mark.  Where a parser that goes on
behind an error would set its marks is not modelled: the mark here is a shown terminal that mends
the whole text, if there is one, and otherwise an error at the first terminal.
-/

namespace DocHarvest.Program

open Grammar (Place)

/-- The name that the grammar gives a terminal. -/
def terminalName : Kind → String
  | .identifier => "identifier"
  | .integer => "integer"
  | .float => "float"
  | .newline => "_newline"
  | .indent => "_indent"
  | .dedent => "_dedent"
  | .stringStart => "string_start"
  | .stringEnd => "string_end"
  | .stringPiece => "_string_content"
  | .braceEscape => "escape_interpolation"
  | .escapeSequence => "escape_sequence"
  | .typeConversion => "type_conversion"
  | .ellipsis => "ellipsis"
  | .trueLiteral => "true"
  | .falseLiteral => "false"
  | .noneLiteral => "none"
  | .literal text => text
  | _ => ""

/-- The characters at which no terminal begins, up to one where one does. -/
def strayRun : List Char → List Char
  | [] => []
  | character :: rest =>
      if (lex .start reader.everyToken false (character :: rest)).isSome then []
      else character :: strayRun rest

/-- The error of a text that no single terminal mends.  It begins with the first terminal; if no
terminal begins there, it covers only the characters before the next one. -/
def errorFrom : (fuel : Nat) → Place → List Char → Tree
  | 0, place, text => .leaf none .error [] text place
  | fuel + 1, place, text =>
      match lex .start reader.everyToken (place == .origin) text with
      | none =>
          let gap := text.takeWhile Lexicon.isSeparator
          .leaf none .error gap (strayRun (text.drop gap.length)) (place.after gap)
      | some lexeme =>
          let start := place.after lexeme.gap
          if table.extras.contains lexeme.token then
            errorFrom fuel (start.after lexeme.text) lexeme.rest
          else .leaf none .error lexeme.gap (text.drop lexeme.gap.length) start

def treeOf (text : List Char) : Tree :=
  match reader.read text with
  | .tree tree => tree
  | .stuck reading automaton =>
      let missing := (reader.missing? automaton reading).filter fun kind => !kind.isHidden
      let mark :=
        match missing with
        | some kind => .leaf none (.missing (terminalName kind)) [] [] reading.place
        | none => errorFrom text.length .origin text
      .node none .sourceFile [mark]

def parser : Parser where
  refused? := none
  parse text := some (treeOf text)

end DocHarvest.Program
