import DocHarvest.Grammar.Rule
import DocHarvest.Program.Kind

/-!
The grammar of Python source.

It admits more than the language does: the statements of its second version, parameters in any
order, statements such as a return outside a function, and blocks without a statement.  What it
refuses is refused for its shape alone.
-/

namespace DocHarvest.Program

open Grammar (Rule Grouping)

abbrev Phrase := Rule Kind Role

namespace Phrase

instance : Coe String Phrase := ⟨fun text => .symbol (.literal text)⟩

def part (kind : Kind) : Phrase := .symbol kind

def sequence (parts : List Phrase) : Phrase := Rule.sequence parts

def choice (options : List Phrase) : Phrase := Rule.choice options

def optional (body : Phrase) : Phrase := Rule.optional body

def manyOrNone (body : Phrase) : Phrase := Rule.manyOrNone body

def many (body : Phrase) : Phrase := Rule.many body

/-- The phrase once or more, with commas between. -/
def commas (body : Phrase) : Phrase := Rule.separated body ","

def role (played : Role) (body : Phrase) : Phrase := Rule.role played body

def shown (kind : Kind) (body : Phrase) : Phrase := Rule.shown kind body

def level (value : Int) (body : Phrase) : Phrase := Rule.ranked value none body

def left (value : Int) (body : Phrase) : Phrase := Rule.ranked value (some .left) body

def right (value : Int) (body : Phrase) : Phrase := Rule.ranked value (some .right) body

def weight (value : Int) (body : Phrase) : Phrase := Rule.weighted value body

end Phrase

open Phrase

/-- Levels of the operators, from loose to tight. -/
inductive Level where
  | lambda
  | conditional
  | typedParameter
  | parenthesized
  | or
  | and
  | not
  | compare
  | bitOr
  | bitAnd
  | bitXor
  | shift
  | sum
  | product
  | unary
  | power
  | call

def Level.value : Level → Int
  | .lambda => -2
  | .conditional | .typedParameter => -1
  | .parenthesized => 1
  | .or => 10
  | .and => 11
  | .not => 12
  | .compare => 13
  | .bitOr => 14
  | .bitAnd => 15
  | .bitXor => 16
  | .shift => 17
  | .sum => 18
  | .product => 19
  | .unary => 20
  | .power => 21
  | .call => 22

def statementRules : List (Kind × Phrase) := [
  (.sourceFile, manyOrNone (part .statement)),
  (.statement, choice [part .simpleStatements, part .compoundStatement]),
  (.simpleStatements, sequence [
    Rule.separated (part .simpleStatement) ";",
    optional ";",
    part .newline]),
  (.simpleStatement, choice [
    part .futureImportStatement,
    part .importStatement,
    part .importFromStatement,
    part .printStatement,
    part .assertStatement,
    part .expressionStatement,
    part .returnStatement,
    part .deleteStatement,
    part .raiseStatement,
    part .passStatement,
    part .breakStatement,
    part .continueStatement,
    part .globalStatement,
    part .nonlocalStatement,
    part .execStatement,
    part .typeAliasStatement]),
  (.importStatement, sequence ["import", part .importList]),
  (.importDots, many "."),
  (.relativeImport, sequence [part .importDots, optional (part .dottedName)]),
  (.futureImportStatement, sequence [
    "from",
    "__future__",
    "import",
    choice [part .importList, sequence ["(", part .importList, ")"]]]),
  (.importFromStatement, sequence [
    "from",
    role .moduleName (choice [part .relativeImport, part .dottedName]),
    "import",
    choice [
      part .wildcardImport,
      part .importList,
      sequence ["(", part .importList, ")"]]]),
  (.importList, sequence [
    commas (role .name (choice [part .dottedName, part .aliasedImport])),
    optional ","]),
  (.aliasedImport, sequence [
    role .name (part .dottedName),
    "as",
    role .alias (part .identifier)]),
  (.wildcardImport, "*"),
  (.printStatement, choice [
    level 1 (sequence [
      "print",
      part .chevron,
      manyOrNone (sequence [",", role .argument (part .expression)]),
      optional ","]),
    level (-3) (weight (-1) (sequence [
      "print",
      commas (role .argument (part .expression)),
      optional ","]))]),
  (.chevron, sequence [">>", part .expression]),
  (.assertStatement, sequence ["assert", commas (part .expression)]),
  (.expressionStatement, choice [
    part .expression,
    sequence [commas (part .expression), optional ","],
    part .assignment,
    part .augmentedAssignment,
    part .yield]),
  (.namedExpression, sequence [
    role .name (part .namedExpressionTarget),
    ":=",
    role .value (part .expression)]),
  (.namedExpressionTarget, choice [part .identifier, part .keywordIdentifier]),
  (.returnStatement, sequence ["return", optional (part .expressions)]),
  (.deleteStatement, sequence ["del", part .expressions]),
  (.expressions, choice [part .expression, part .expressionList]),
  (.raiseStatement, sequence [
    "raise",
    optional (part .expressions),
    optional (sequence ["from", role .cause (part .expression)])]),
  (.passStatement, left 0 "pass"),
  (.breakStatement, left 0 "break"),
  (.continueStatement, left 0 "continue")]

def compoundRules : List (Kind × Phrase) := [
  (.compoundStatement, choice [
    part .ifStatement,
    part .forStatement,
    part .whileStatement,
    part .tryStatement,
    part .withStatement,
    part .functionDefinition,
    part .classDefinition,
    part .decoratedDefinition,
    part .matchStatement]),
  (.ifStatement, sequence [
    "if",
    role .condition (part .expression),
    ":",
    role .consequence (part .suite),
    manyOrNone (role .alternative (part .elifClause)),
    optional (role .alternative (part .elseClause))]),
  (.elifClause, sequence [
    "elif",
    role .condition (part .expression),
    ":",
    role .consequence (part .suite)]),
  (.elseClause, sequence ["else", ":", role .body (part .suite)]),
  (.matchStatement, sequence [
    "match",
    commas (role .subject (part .expression)),
    optional ",",
    ":",
    role .body (shown .block (part .matchBlock))]),
  (.matchBlock, choice [
    sequence [
      part .indent,
      manyOrNone (role .alternative (part .caseClause)),
      part .dedent],
    part .newline]),
  (.caseClause, sequence [
    "case",
    commas (part .casePattern),
    optional ",",
    optional (role .guard (part .ifClause)),
    ":",
    role .consequence (part .suite)]),
  (.forStatement, sequence [
    optional "async",
    "for",
    role .left (part .leftHandSide),
    "in",
    role .right (part .expressions),
    ":",
    role .body (part .suite),
    role .alternative (optional (part .elseClause))]),
  (.whileStatement, sequence [
    "while",
    role .condition (part .expression),
    ":",
    role .body (part .suite),
    optional (role .alternative (part .elseClause))]),
  (.tryStatement, sequence [
    "try",
    ":",
    role .body (part .suite),
    choice [
      sequence [
        many (part .exceptClause),
        optional (part .elseClause),
        optional (part .finallyClause)],
      sequence [
        many (part .exceptGroupClause),
        optional (part .elseClause),
        optional (part .finallyClause)],
      part .finallyClause]]),
  (.exceptClause, sequence [
    "except",
    optional (sequence [
      part .expression,
      optional (sequence [choice ["as", ","], part .expression])]),
    ":",
    part .suite]),
  (.exceptGroupClause, sequence [
    "except*",
    sequence [part .expression, optional (sequence ["as", part .expression])],
    ":",
    part .suite]),
  (.finallyClause, sequence ["finally", ":", part .suite]),
  (.withStatement, sequence [
    optional "async",
    "with",
    part .withClause,
    ":",
    role .body (part .suite)]),
  (.withClause, choice [
    sequence [commas (part .withItem), optional ","],
    sequence ["(", commas (part .withItem), optional ",", ")"]]),
  (.withItem, weight 1 (sequence [role .value (part .expression)]))]

def definitionRules : List (Kind × Phrase) := [
  (.functionDefinition, sequence [
    optional "async",
    "def",
    role .name (part .identifier),
    role .typeParameters (optional (part .typeParameter)),
    role .parameters (part .parameters),
    optional (sequence ["->", role .returnType (part .type)]),
    ":",
    role .body (part .suite)]),
  (.parameters, sequence ["(", optional (part .parameterList), ")"]),
  (.lambdaParameters, part .parameterList),
  (.listSplat, sequence ["*", part .expression]),
  (.dictionarySplat, sequence ["**", part .expression]),
  (.globalStatement, sequence ["global", commas (part .identifier)]),
  (.nonlocalStatement, sequence ["nonlocal", commas (part .identifier)]),
  (.execStatement, sequence [
    "exec",
    role .code (choice [part .string, part .identifier]),
    optional (sequence ["in", commas (part .expression)])]),
  (.typeAliasStatement, weight 1 (sequence ["type", part .type, "=", part .type])),
  (.classDefinition, sequence [
    "class",
    role .name (part .identifier),
    role .typeParameters (optional (part .typeParameter)),
    role .bases (optional (part .argumentList)),
    ":",
    role .body (part .suite)]),
  (.typeParameter, sequence ["[", commas (part .type), optional ",", "]"]),
  (.parenthesizedListSplat, level Level.parenthesized.value (sequence [
    "(",
    choice [
      shown .parenthesizedExpression (part .parenthesizedListSplat),
      part .listSplat],
    ")"])),
  (.argumentList, sequence [
    "(",
    optional (commas (choice [
      part .expression,
      part .listSplat,
      part .dictionarySplat,
      shown .parenthesizedExpression (part .parenthesizedListSplat),
      part .keywordArgument])),
    optional ",",
    ")"]),
  (.decoratedDefinition, sequence [
    many (part .decorator),
    role .definition (choice [part .classDefinition, part .functionDefinition])]),
  (.decorator, sequence ["@", part .expression, part .newline]),
  (.suite, choice [
    shown .block (part .simpleStatements),
    sequence [part .indent, part .block],
    shown .block (part .newline)]),
  (.block, sequence [manyOrNone (part .statement), part .dedent]),
  (.expressionList, right 0 (sequence [
    part .expression,
    choice [
      ",",
      sequence [many (sequence [",", part .expression]), optional ","]]])),
  (.dottedName, level 1 (Rule.separated (part .identifier) "."))]

def casePatternRules : List (Kind × Phrase) := [
  (.casePattern, level 1 (choice [
    shown .asPattern (part .bareAsPattern),
    part .keywordPattern,
    part .simplePattern])),
  (.simplePattern, level 1 (choice [
    part .classPattern,
    part .splatPattern,
    part .unionPattern,
    shown .listPattern (part .bareListPattern),
    shown .tuplePattern (part .bareTuplePattern),
    part .dictPattern,
    part .string,
    part .concatenatedString,
    part .trueLiteral,
    part .falseLiteral,
    part .noneLiteral,
    sequence [optional "-", choice [part .integer, part .float]],
    part .complexPattern,
    part .dottedName,
    "_"])),
  (.bareAsPattern, sequence [part .casePattern, "as", part .identifier]),
  (.unionPattern, right 0 (sequence [
    part .simplePattern,
    many (left 0 (sequence ["|", part .simplePattern]))])),
  (.bareListPattern, sequence [
    "[",
    optional (sequence [commas (part .casePattern), optional ","]),
    "]"]),
  (.bareTuplePattern, sequence [
    "(",
    optional (sequence [commas (part .casePattern), optional ","]),
    ")"]),
  (.dictPattern, sequence [
    "\x7b",
    optional (sequence [
      commas (choice [part .keyValuePattern, part .splatPattern]),
      optional ","]),
    "\x7d"]),
  (.keyValuePattern, sequence [
    role .key (part .simplePattern),
    ":",
    role .value (part .casePattern)]),
  (.keywordPattern, sequence [part .identifier, "=", part .simplePattern]),
  (.splatPattern, level 1 (sequence [
    choice ["*", "**"],
    choice [part .identifier, "_"]])),
  (.classPattern, sequence [
    part .dottedName,
    "(",
    optional (sequence [commas (part .casePattern), optional ","]),
    ")"]),
  (.complexPattern, level 1 (sequence [
    optional "-",
    choice [part .integer, part .float],
    choice ["+", "-"],
    choice [part .integer, part .float]]))]

/-- What may follow the stars of a parameter or target. -/
def splatTarget : Phrase :=
  choice [part .identifier, part .keywordIdentifier, part .subscript, part .attributeAccess]

/-- Parameters, and targets of assignments. -/
def patternRules : List (Kind × Phrase) := [
  (.parameterList, sequence [commas (part .parameter), optional ","]),
  (.patterns, sequence [commas (part .pattern), optional ","]),
  (.parameter, choice [
    part .identifier,
    part .typedParameter,
    part .defaultParameter,
    part .typedDefaultParameter,
    part .listSplatPattern,
    part .tuplePattern,
    part .keywordSeparator,
    part .positionalSeparator,
    part .dictionarySplatPattern]),
  (.pattern, choice [
    part .identifier,
    part .keywordIdentifier,
    part .subscript,
    part .attributeAccess,
    part .listSplatPattern,
    part .tuplePattern,
    part .listPattern]),
  (.tuplePattern, sequence ["(", optional (part .patterns), ")"]),
  (.listPattern, sequence ["[", optional (part .patterns), "]"]),
  (.defaultParameter, sequence [
    role .name (choice [part .identifier, part .tuplePattern]),
    "=",
    role .value (part .expression)]),
  (.typedDefaultParameter, level Level.typedParameter.value (sequence [
    role .name (part .identifier),
    ":",
    role .type (part .type),
    "=",
    role .value (part .expression)])),
  (.listSplatPattern, sequence ["*", splatTarget]),
  (.dictionarySplatPattern, sequence ["**", splatTarget]),
  (.asPattern, left 0 (sequence [
    part .expression,
    "as",
    role .alias (shown .asPatternTarget (part .expression))]))]

def binary (grouping : Grouping) (operator : String) (tightness : Level) : Phrase :=
  .ranked tightness.value (some grouping) (sequence [
    role .left (part .primaryExpression),
    role .operator operator,
    role .right (part .primaryExpression)])

def boolean (operator : String) (tightness : Level) : Phrase :=
  left tightness.value (sequence [
    role .left (part .expression),
    role .operator operator,
    role .right (part .expression)])

def expressionRules : List (Kind × Phrase) := [
  (.expressionInForClause, choice [
    part .expression,
    shown .lambda (part .lambdaInForClause)]),
  (.expression, choice [
    part .comparisonOperator,
    part .notOperator,
    part .booleanOperator,
    part .lambda,
    part .primaryExpression,
    part .conditionalExpression,
    part .namedExpression,
    part .asPattern]),
  (.primaryExpression, choice [
    part .await,
    part .binaryOperator,
    part .identifier,
    part .keywordIdentifier,
    part .string,
    part .concatenatedString,
    part .integer,
    part .float,
    part .trueLiteral,
    part .falseLiteral,
    part .noneLiteral,
    part .unaryOperator,
    part .attributeAccess,
    part .subscript,
    part .call,
    part .list,
    part .listComprehension,
    part .dictionary,
    part .dictionaryComprehension,
    part .set,
    part .setComprehension,
    part .tuple,
    part .parenthesizedExpression,
    part .generatorExpression,
    part .ellipsis,
    shown .listSplat (part .listSplatPattern)]),
  (.notOperator, level Level.not.value (sequence [
    "not",
    role .argument (part .expression)])),
  (.booleanOperator, choice [boolean "and" .and, boolean "or" .or]),
  (.binaryOperator, choice [
    binary .left "+" .sum,
    binary .left "-" .sum,
    binary .left "*" .product,
    binary .left "@" .product,
    binary .left "/" .product,
    binary .left "%" .product,
    binary .left "//" .product,
    binary .right "**" .power,
    binary .left "|" .bitOr,
    binary .left "&" .bitAnd,
    binary .left "^" .bitXor,
    binary .left "<<" .shift,
    binary .left ">>" .shift]),
  (.unaryOperator, level Level.unary.value (sequence [
    role .operator (choice ["+", "-", "~"]),
    role .argument (part .primaryExpression)])),
  (.comparisonOperator, left Level.compare.value (sequence [
    part .primaryExpression,
    many (sequence [
      role .operators (choice [
        "<",
        "<=",
        "==",
        "!=",
        ">=",
        ">",
        "<>",
        "in",
        shown (.literal "not in") (sequence ["not", "in"]),
        "is",
        shown (.literal "is not") (sequence ["is", "not"])]),
      part .primaryExpression])])),
  (.lambda, level Level.lambda.value (sequence [
    "lambda",
    role .parameters (optional (part .lambdaParameters)),
    ":",
    role .body (part .expression)])),
  (.lambdaInForClause, sequence [
    "lambda",
    role .parameters (optional (part .lambdaParameters)),
    ":",
    role .body (part .expressionInForClause)]),
  (.assignment, sequence [
    role .left (part .leftHandSide),
    choice [
      sequence ["=", role .right (part .rightHandSide)],
      sequence [":", role .type (part .type)],
      sequence [":", role .type (part .type), "=", role .right (part .rightHandSide)]]]),
  (.augmentedAssignment, sequence [
    role .left (part .leftHandSide),
    role .operator (choice [
      "+=", "-=", "*=", "/=", "@=", "//=", "%=", "**=",
      ">>=", "<<=", "&=", "^=", "|="]),
    role .right (part .rightHandSide)]),
  (.leftHandSide, choice [part .pattern, part .patternList]),
  (.patternList, sequence [
    part .pattern,
    choice [
      ",",
      sequence [many (sequence [",", part .pattern]), optional ","]]]),
  (.rightHandSide, choice [
    part .expression,
    part .expressionList,
    part .assignment,
    part .augmentedAssignment,
    part .patternList,
    part .yield]),
  (.yield, right 0 (sequence [
    "yield",
    choice [
      sequence ["from", part .expression],
      optional (part .expressions)]])),
  (.attributeAccess, level Level.call.value (sequence [
    role .object (part .primaryExpression),
    ".",
    role .member (part .identifier)])),
  (.subscript, level Level.call.value (sequence [
    role .value (part .primaryExpression),
    "[",
    commas (role .index (choice [part .expression, part .slice])),
    optional ",",
    "]"])),
  (.slice, sequence [
    optional (part .expression),
    ":",
    optional (part .expression),
    optional (sequence [":", optional (part .expression)])]),
  (.call, level Level.call.value (sequence [
    role .callee (part .primaryExpression),
    role .arguments (choice [part .generatorExpression, part .argumentList])])),
  (.typedParameter, level Level.typedParameter.value (sequence [
    choice [part .identifier, part .listSplatPattern, part .dictionarySplatPattern],
    ":",
    role .type (part .type)])),
  (.type, choice [
    part .expression,
    part .splatType,
    part .genericType,
    part .unionType,
    part .constrainedType,
    part .memberType]),
  (.splatType, level 1 (sequence [choice ["*", "**"], part .identifier])),
  (.genericType, level 1 (sequence [part .identifier, part .typeParameter])),
  (.unionType, left 0 (sequence [part .type, "|", part .type])),
  (.constrainedType, right 0 (sequence [part .type, ":", part .type])),
  (.memberType, sequence [part .type, ".", part .identifier]),
  (.keywordArgument, sequence [
    role .name (choice [part .identifier, part .keywordIdentifier]),
    "=",
    role .value (part .expression)])]

/-- Displays, comprehensions and string literals. -/
def literalRules : List (Kind × Phrase) := [
  (.list, sequence ["[", optional (part .collectionElements), "]"]),
  (.set, sequence ["\x7b", part .collectionElements, "\x7d"]),
  (.tuple, sequence ["(", optional (part .collectionElements), ")"]),
  (.dictionary, sequence [
    "\x7b",
    optional (commas (choice [part .pair, part .dictionarySplat])),
    optional ",",
    "\x7d"]),
  (.pair, sequence [
    role .key (part .expression),
    ":",
    role .value (part .expression)]),
  (.listComprehension, sequence [
    "[",
    role .body (part .expression),
    part .comprehensionClauses,
    "]"]),
  (.dictionaryComprehension, sequence [
    "\x7b",
    role .body (part .pair),
    part .comprehensionClauses,
    "\x7d"]),
  (.setComprehension, sequence [
    "\x7b",
    role .body (part .expression),
    part .comprehensionClauses,
    "\x7d"]),
  (.generatorExpression, sequence [
    "(",
    role .body (part .expression),
    part .comprehensionClauses,
    ")"]),
  (.comprehensionClauses, sequence [
    part .forInClause,
    manyOrNone (choice [part .forInClause, part .ifClause])]),
  (.parenthesizedExpression, level Level.parenthesized.value (sequence [
    "(",
    choice [part .expression, part .yield],
    ")"])),
  (.collectionElements, sequence [
    commas (choice [
      part .expression,
      part .yield,
      part .listSplat,
      part .parenthesizedListSplat]),
    optional ","]),
  (.forInClause, left 0 (sequence [
    optional "async",
    "for",
    role .left (part .leftHandSide),
    "in",
    role .right (commas (part .expressionInForClause)),
    optional ","])),
  (.ifClause, sequence ["if", part .expression]),
  (.conditionalExpression, right Level.conditional.value (sequence [
    part .expression,
    "if",
    part .expression,
    "else",
    part .expression])),
  (.concatenatedString, sequence [part .string, many (part .string)]),
  (.string, sequence [
    part .stringStart,
    manyOrNone (choice [part .interpolation, part .stringContent]),
    part .stringEnd]),
  (.stringContent, right 0 (many (choice [
    part .braceEscape,
    part .escapeSequence,
    part .loneBackslash,
    part .stringPiece]))),
  (.interpolation, sequence [
    "\x7b",
    role .interpolated (part .interpolated),
    optional "=",
    optional (role .conversion (part .typeConversion)),
    optional (role .format (part .formatSpecifier)),
    "\x7d"]),
  (.interpolated, choice [
    part .expression,
    part .expressionList,
    part .patternList,
    part .yield]),
  (.formatSpecifier, sequence [
    ":",
    manyOrNone (choice [
      part .formatText,
      shown .formatExpression (part .interpolation)])]),
  (.keywordIdentifier, choice [
    level (-3) (shown .identifier (choice ["print", "exec", "async", "await", "match"])),
    shown .identifier "type"]),
  (.await, level Level.unary.value (sequence ["await", part .primaryExpression])),
  (.positionalSeparator, "/"),
  (.keywordSeparator, "*")]

def layoutTerminals : List Kind :=
  [.newline, .indent, .dedent, .stringStart, .stringPiece, .braceEscape, .stringEnd, .comment]

/-- All terminals: names first, then those of the rules as they come, layout last. -/
def terminalsOf (rules : List (Kind × Phrase)) : List Kind :=
  let heads := rules.map Prod.fst
  let written := rules.flatMap fun rule => rule.2.symbols
  let found := written.foldl
    (fun kept kind =>
      if heads.contains kind || layoutTerminals.contains kind || kept.contains kind then kept
      else kind :: kept)
    [.identifier]
  found.reverse ++ [.lineContinuation] ++ layoutTerminals

def specification : Grammar.Specification Kind Role :=
  let rules := statementRules ++ compoundRules ++ definitionRules ++ casePatternRules ++
    patternRules ++ expressionRules ++ literalRules
  { rules
    start := .sourceFile
    inlined := [.simpleStatement, .compoundStatement, .suite, .expressions, .leftHandSide,
      .keywordIdentifier]
    extras := [.comment, .lineContinuation]
    terminals := terminalsOf rules }

end DocHarvest.Program
