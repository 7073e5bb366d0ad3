import DocHarvest.Grammar.Tree

/-!
Trees of Python source: the kinds of phrases and terminals, the roles that parts play in a phrase,
and the parsers that give such trees.

A parser marks what it cannot read by nodes of two kinds of their own: an error covers text that has
no place in any phrase, and a missing terminal stands where one would have to be put in.
-/

namespace DocHarvest.Program

inductive Kind where
  /-- A terminal with a fixed spelling. -/
  | literal (text : String)
  -- terminals
  | identifier
  | integer
  | float
  | ellipsis
  | trueLiteral
  | falseLiteral
  | noneLiteral
  | comment
  | lineContinuation
  | stringStart
  | stringEnd
  | escapeSequence
  | braceEscape
  | typeConversion
  -- terminals that are not shown
  | newline
  | indent
  | dedent
  | stringPiece
  | loneBackslash
  | formatText
  -- phrases that leave their parts to the phrase around them
  | statement
  | simpleStatements
  | simpleStatement
  | compoundStatement
  | suite
  | expressions
  | leftHandSide
  | rightHandSide
  | keywordIdentifier
  | importList
  | namedExpressionTarget
  | matchBlock
  | simplePattern
  | keyValuePattern
  | parameterList
  | patterns
  | parameter
  | pattern
  | expression
  | primaryExpression
  | expressionInForClause
  | collectionElements
  | comprehensionClauses
  | interpolated
  | bareListPattern
  | bareTuplePattern
  | bareAsPattern
  -- phrases
  | sourceFile
  | importStatement
  | importDots
  | relativeImport
  | futureImportStatement
  | importFromStatement
  | aliasedImport
  | wildcardImport
  | printStatement
  | chevron
  | assertStatement
  | expressionStatement
  | namedExpression
  | returnStatement
  | deleteStatement
  | raiseStatement
  | passStatement
  | breakStatement
  | continueStatement
  | ifStatement
  | elifClause
  | elseClause
  | matchStatement
  | caseClause
  | forStatement
  | whileStatement
  | tryStatement
  | exceptClause
  | exceptGroupClause
  | finallyClause
  | withStatement
  | withClause
  | withItem
  | functionDefinition
  | parameters
  | lambdaParameters
  | listSplat
  | dictionarySplat
  | globalStatement
  | nonlocalStatement
  | execStatement
  | typeAliasStatement
  | classDefinition
  | typeParameter
  | parenthesizedListSplat
  | argumentList
  | decoratedDefinition
  | decorator
  | block
  | expressionList
  | dottedName
  | casePattern
  | asPattern
  | asPatternTarget
  | unionPattern
  | listPattern
  | tuplePattern
  | dictPattern
  | keywordPattern
  | splatPattern
  | classPattern
  | complexPattern
  | defaultParameter
  | typedDefaultParameter
  | typedParameter
  | listSplatPattern
  | dictionarySplatPattern
  | positionalSeparator
  | keywordSeparator
  | notOperator
  | booleanOperator
  | binaryOperator
  | unaryOperator
  | comparisonOperator
  | lambda
  | lambdaInForClause
  | assignment
  | augmentedAssignment
  | patternList
  | yield
  | attributeAccess
  | subscript
  | slice
  | call
  | type
  | splatType
  | genericType
  | unionType
  | constrainedType
  | memberType
  | keywordArgument
  | list
  | set
  | tuple
  | dictionary
  | pair
  | listComprehension
  | dictionaryComprehension
  | setComprehension
  | generatorExpression
  | parenthesizedExpression
  | forInClause
  | ifClause
  | conditionalExpression
  | concatenatedString
  | string
  | stringContent
  | interpolation
  | formatSpecifier
  | formatExpression
  | await
  -- marks of a parser
  | error
  /-- A terminal that is not in the text, by the name that the grammar gives it. -/
  | missing (name : String)
deriving DecidableEq, Repr, Inhabited

namespace Kind

def spelling? : Kind → Option String
  | .literal text => some text
  | .ellipsis => some "..."
  | .trueLiteral => some "True"
  | .falseLiteral => some "False"
  | .noneLiteral => some "None"
  | _ => none

/-- Kinds that have no place of their own in a tree: phrases among them leave their parts to the
phrase around them, terminals among them only contribute their text.  The grammar gives hidden
terminals names that begin with an underscore. -/
def isHidden : Kind → Bool
  | .newline | .indent | .dedent | .stringPiece | .loneBackslash | .formatText
  | .statement | .simpleStatements | .simpleStatement | .compoundStatement | .suite
  | .expressions | .leftHandSide | .rightHandSide | .keywordIdentifier | .importList
  | .namedExpressionTarget | .matchBlock | .simplePattern | .keyValuePattern | .parameterList
  | .patterns | .parameter | .pattern | .expression | .primaryExpression
  | .expressionInForClause | .collectionElements | .comprehensionClauses | .interpolated
  | .bareListPattern | .bareTuplePattern | .bareAsPattern => true
  | .missing name => name.toList.head? == some '_'
  | _ => false

/-- Kinds of shown parts other than terminals with a fixed spelling. -/
def isNamed : Kind → Bool
  | .literal _ => false
  | kind => !kind.isHidden

/-- Marks that a parser leaves where it cannot read a text. -/
def isFault : Kind → Bool
  | .error | .missing _ => true
  | _ => false

end Kind

inductive Role where
  | moduleName
  | name
  | alias
  | argument
  | value
  | cause
  | condition
  | consequence
  | alternative
  | subject
  | body
  | guard
  | left
  | right
  | typeParameters
  | parameters
  | returnType
  | code
  | bases
  | definition
  | key
  | type
  | operator
  | operators
  | callee
  | arguments
  | object
  | member
  | index
  | interpolated
  | conversion
  | format
deriving DecidableEq, Repr

abbrev Tree := Grammar.Tree Kind Role

namespace Tree

def shown (tree : Tree) : List Tree :=
  (Grammar.Tree.parts tree).filter fun part => !part.kind.isHidden

/-- The shown parts of a tree other than terminals with a fixed spelling. -/
def named (tree : Tree) : List Tree :=
  (Grammar.Tree.parts tree).filter fun part => part.kind.isNamed

def part? (tree : Tree) (role : Role) : Option Tree :=
  (shown tree).find? fun part => part.role == some role

end Tree

/-- What gives trees for texts. -/
structure Parser where
  /-- Why the parser cannot be used at all. -/
  refused? : Option String
  /-- The tree of a text, unless the parser gives up. -/
  parse : List Char → Option Tree

end DocHarvest.Program
