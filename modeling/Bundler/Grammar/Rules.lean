import Bundler.Grammar.Pattern

/-!
# The grammar of modules

One parsing expression for each rule of the module language. Where several forms start alike their
common start is read once, and the rule is named by what follows; so the time to read a module does
not grow with the number of forms at each level of nesting.
-/

namespace Bundler.Grammar

open Bundler.Source (TokenKind)

/-- The rules of the grammar. -/
inductive Rule
  | module
  | statements
  | statement
  | simpleStatements
  | simpleStatement
  | assignment
  | assignedValue
  | importFrom
  | typeAlias
  | compound
  | block
  | classDefinition
  | functionDefinition
  | parameters
  | lambdaParameters
  | conditionalStatement
  | elseIf
  | elseBlock
  | whileLoop
  | forLoop
  | withBlock
  | withItem
  | tryBlock
  | matchBlock
  | caseBlock
  | casePatterns
  | casePattern
  | closedPattern
  | literalPattern
  | starPattern
  | sequenceItems
  | classPattern
  | mappingPattern
  | typeParameters
  | decorators
  | expression
  | lambda
  | yieldExpression
  | starExpressions
  | starExpression
  | starNamedExpression
  | starNamedExpressions
  | namedExpression
  | disjunction
  | conjunction
  | inversion
  | comparison
  | bitwiseOr
  | bitwiseXor
  | bitwiseAnd
  | shift
  | sum
  | term
  | factor
  | power
  | awaited
  | primary
  | call
  | slices
  | slice
  | atom
  | parenthesized
  | bracketed
  | braced
  | dictItem
  | comprehensionClauses
  | strings
  | formattedString
  | field
  | fieldSpec
  | firstArgument
  | positionalArgument
  | keywordArgument
  | starredArgument
  | doubleStarredArgument
  | arguments
  | moreArguments
  | namedArguments
  | starTargets
  | starTarget
  | target
  | starAtom
  | singleTarget
  | deleteTarget
  deriving DecidableEq, Repr

namespace Rule

open Pattern

/-- A keyword, an operator or a delimiter. -/
def tok (text : String) : Pattern Rule := token (.text text.toList)

def oneOf : List String → Pattern Rule
  | [] => absent .empty
  | [text] => tok text
  | text :: rest => alt (tok text) (oneOf rest)

def name : Pattern Rule := token .identifier

/-- The end of a logical line. -/
def newline : Pattern Rule := token (.kind .newline)

def ref (name : Rule) : Pattern Rule := .rule name

def comma : Pattern Rule := tok ","

/-- The items of a list that goes on with the given ones, and its last comma. -/
def furtherItems (item : Pattern Rule) : Pattern Rule := many (comma ++ item) ++ maybe comma

/-- Parameters up to a closing token: first those without a default, then those with one; a slash after
at least one of them; last the starred ones. -/
def parameterList (close : String) (parameter starred : Pattern Rule) : Pattern Rule :=
  let next := comma <|> peek (tok close)
  let default := tok "=" ++ ref .expression
  let plain := parameter ++ absent (tok "=") ++ next
  let defaulted := parameter ++ default ++ next
  let either := parameter ++ maybe default ++ next
  let keywords := tok "**" ++ parameter ++ absent (tok "=") ++ next
  let starredOnes :=
    tok "*" ++ (starred ++ next ++ many either ++ maybe keywords
        <|> comma ++ repeated either ++ maybe keywords)
      <|> keywords
  let slash := tok "/" ++ next
  let afterDefault :=
    slash ++ many defaulted ++ maybe starredOnes <|> maybe starredOnes
  repeated plain ++ (slash ++ many plain ++ many defaulted ++ maybe starredOnes
      <|> repeated defaulted ++ afterDefault
      <|> maybe starredOnes)
    <|> repeated defaulted ++ afterDefault
    <|> starredOnes

/-- What may be assigned. -/
def yieldOrExpressions : Pattern Rule := ref .yieldExpression <|> ref .starExpressions

/-- A sequence of operators of one strength, grouped from the left. -/
def leftGrouped (operand : Pattern Rule) (operators : List String) : Pattern Rule :=
  extend operand (oneOf operators ++ operand ++ label .binary)

/-- A chain of operands that forms one node when it has more than one. -/
def chained (operand operator : Pattern Rule) (kind : Node) : Pattern Rule :=
  operand ++ maybe (repeated (operator ++ operand) ++ label kind)

/-- A name, or names with dots between them. -/
def dottedName : Pattern Rule := separated name (tok ".")

/-- An attribute or an element of repeated value. -/
def place : Pattern Rule := only [.attribute, .subscript] (ref .primary)

/-- The name that a part of a subject is bound to. -/
def captureName : Pattern Rule :=
  absent (tok "_") ++ name ++ absent (oneOf [".", "(", "="])

/-- A dotted name with at least one dot. -/
def qualifiedName : Pattern Rule := name ++ repeated (tok "." ++ name)

def pattern : Rule → Pattern Rule
  | .module => maybe (ref .statements) ++ token (.kind .finish)
  | .statements => repeated (ref .statement)
  | .statement => (ref .compound <|> ref .simpleStatements) ++ label .statement
  | .simpleStatements => separatedTrailing (ref .simpleStatement) (tok ";") ++ newline
  | .simpleStatement =>
    tok "return" ++ maybe (ref .starExpressions)
      <|> tok "import" ++ separated (dottedName ++ maybe (tok "as" ++ name)) comma
      <|> ref .importFrom
      <|> tok "raise" ++ maybe (ref .expression ++ maybe (tok "from" ++ ref .expression))
      <|> tok "pass"
      <|> tok "del" ++ separatedTrailing (ref .deleteTarget) comma ++ peek (tok ";" <|> newline)
      <|> tok "assert" ++ ref .expression ++ maybe (comma ++ ref .expression)
      <|> tok "break"
      <|> tok "continue"
      <|> oneOf ["global", "nonlocal"] ++ separated name comma
      <|> ref .yieldExpression
      <|> ref .typeAlias
      <|> ref .assignment
      <|> ref .starExpressions
  | .assignment =>
    name ++ tok ":" ++ ref .expression ++ maybe (tok "=" ++ ref .assignedValue)
      <|> place ++ tok ":" ++ ref .expression ++ maybe (tok "=" ++ ref .assignedValue)
      <|> repeated (ref .starTargets ++ tok "=") ++ ref .assignedValue ++ absent (tok "=")
      <|> ref .singleTarget ++ oneOf ["+=", "-=", "*=", "@=", "/=", "%=", "&=", "|=", "^=", "<<=",
          ">>=", "**=", "//="] ++ ref .assignedValue
  | .assignedValue => yieldOrExpressions
  | .importFrom =>
    let asName := name ++ maybe (tok "as" ++ name)
    let dots := repeated (oneOf ["...", "."])
    tok "from" ++ (dots ++ maybe dottedName <|> dottedName) ++ tok "import" ++
      (tok "(" ++ separatedTrailing asName comma ++ tok ")"
        <|> separated asName comma ++ absent comma
        <|> tok "*")
  | .typeAlias =>
    tok "type" ++ name ++ maybe (ref .typeParameters) ++ tok "=" ++ ref .expression
  | .compound =>
    ref .functionDefinition
      <|> ref .classDefinition
      <|> ref .decorators ++ (ref .functionDefinition <|> ref .classDefinition)
      <|> ref .conditionalStatement
      <|> ref .withBlock
      <|> ref .forLoop
      <|> ref .tryBlock
      <|> ref .whileLoop
      <|> ref .matchBlock
  | .decorators => repeated (tok "@" ++ ref .namedExpression ++ newline)
  | .block =>
    (newline ++ token (.kind .indent) ++ ref .statements ++ token (.kind .dedent)
      <|> ref .simpleStatements) ++ label .block
  | .classDefinition =>
    tok "class" ++ name ++ maybe (ref .typeParameters) ++
      maybe (tok "(" ++ maybe (ref .arguments) ++ tok ")") ++ tok ":" ++ ref .block
  | .functionDefinition =>
    maybe (tok "async") ++ tok "def" ++ name ++ maybe (ref .typeParameters) ++
      tok "(" ++ maybe (ref .parameters) ++ tok ")" ++
      maybe (tok "->" ++ ref .expression) ++ tok ":" ++ ref .block
  | .parameters =>
    parameterList ")" (name ++ maybe (tok ":" ++ ref .expression))
      (name ++ maybe (tok ":" ++ ref .starExpression) ++ absent (tok "="))
  | .lambdaParameters => parameterList ":" name (name ++ absent (tok "="))
  | .conditionalStatement =>
    tok "if" ++ ref .namedExpression ++ tok ":" ++ ref .block ++
      maybe (ref .elseIf <|> ref .elseBlock)
  | .elseIf =>
    tok "elif" ++ ref .namedExpression ++ tok ":" ++ ref .block ++
      maybe (ref .elseIf <|> ref .elseBlock)
  | .elseBlock => tok "else" ++ tok ":" ++ ref .block
  | .whileLoop =>
    tok "while" ++ ref .namedExpression ++ tok ":" ++ ref .block ++ maybe (ref .elseBlock)
  | .forLoop =>
    maybe (tok "async") ++ tok "for" ++ ref .starTargets ++ tok "in" ++ ref .starExpressions ++
      tok ":" ++ ref .block ++ maybe (ref .elseBlock)
  | .withBlock =>
    maybe (tok "async") ++ tok "with" ++
      (tok "(" ++ separatedTrailing (ref .withItem) comma ++ tok ")" ++ peek (tok ":")
        <|> separated (ref .withItem) comma) ++
      tok ":" ++ ref .block
  | .withItem =>
    ref .expression ++
      maybe (tok "as" ++ ref .starTarget ++ peek (oneOf [",", ")", ":"]))
  | .tryBlock =>
    let asName := maybe (tok "as" ++ name)
    let handler := tok "except" ++
      maybe (ref .expression ++ (repeated (comma ++ ref .expression) ++ maybe comma
        <|> comma
        <|> asName)) ++ tok ":" ++ ref .block
    let groupHandler := tok "except" ++ tok "*" ++ ref .expression ++
      (repeated (comma ++ ref .expression) ++ maybe comma <|> comma <|> asName) ++
      tok ":" ++ ref .block
    let ending := tok "finally" ++ tok ":" ++ ref .block
    tok "try" ++ tok ":" ++ ref .block ++
      (ending
        <|> repeated handler ++ maybe (ref .elseBlock) ++ maybe ending
        <|> repeated groupHandler ++ maybe (ref .elseBlock) ++ maybe ending)
  | .matchBlock =>
    tok "match" ++
      (tok "*" ++ ref .bitwiseOr ++ comma ++ maybe (ref .starNamedExpressions)
        <|> ref .namedExpression ++ maybe (comma ++ maybe (ref .starNamedExpressions))) ++
      tok ":" ++ newline ++ token (.kind .indent) ++ repeated (ref .caseBlock) ++
      token (.kind .dedent)
  | .caseBlock =>
    tok "case" ++ ref .casePatterns ++ maybe (tok "if" ++ ref .namedExpression) ++
      tok ":" ++ ref .block
  | .casePatterns =>
    ref .starPattern ++ comma ++ maybe (ref .sequenceItems)
      <|> ref .casePattern ++ maybe (comma ++ maybe (ref .sequenceItems))
  | .casePattern =>
    separated (ref .closedPattern) (tok "|") ++ maybe (tok "as" ++ captureName)
  | .closedPattern =>
    ref .literalPattern
      <|> captureName
      <|> tok "_"
      <|> qualifiedName ++ absent (oneOf [".", "(", "="])
      <|> tok "(" ++ (tok ")"
          <|> ref .casePattern ++ (tok ")" <|> comma ++ maybe (ref .sequenceItems) ++ tok ")")
          <|> ref .starPattern ++ comma ++ maybe (ref .sequenceItems) ++ tok ")")
      <|> tok "[" ++ maybe (ref .sequenceItems) ++ tok "]"
      <|> ref .mappingPattern
      <|> ref .classPattern
  | .literalPattern =>
    let number := token (.kind .number)
    maybe (tok "-") ++ number ++ absent (oneOf ["+", "-"])
      <|> maybe (tok "-") ++ token .realNumber ++ oneOf ["+", "-"] ++ token .imaginaryNumber
      <|> ref .strings
      <|> oneOf ["None", "True", "False"]
  | .starPattern => tok "*" ++ (captureName <|> tok "_")
  | .sequenceItems => separatedTrailing (ref .starPattern <|> ref .casePattern) comma
  | .mappingPattern =>
    let rest := tok "**" ++ captureName
    let item := (ref .literalPattern <|> qualifiedName) ++ tok ":" ++ ref .casePattern
    tok "\x7b" ++ (tok "\x7d"
      <|> rest ++ maybe comma ++ tok "\x7d"
      <|> separated item comma ++ maybe (comma ++ rest) ++ maybe comma ++ tok "\x7d")
  | .classPattern =>
    let keyword := name ++ tok "=" ++ ref .casePattern
    dottedName ++ tok "(" ++ (tok ")"
      <|> separated keyword comma ++ maybe comma ++ tok ")"
      <|> separated (ref .casePattern) comma ++ maybe (comma ++ separated keyword comma) ++
        maybe comma ++ tok ")")
  | .typeParameters =>
    let default := maybe (tok "=" ++ ref .expression)
    let parameter :=
      name ++ maybe (tok ":" ++ ref .expression) ++ default
        <|> tok "*" ++ name ++ maybe (tok "=" ++ ref .starExpression)
        <|> tok "**" ++ name ++ default
    tok "[" ++ separatedTrailing parameter comma ++ tok "]"
  | .expression =>
    ref .disjunction ++ maybe (tok "if" ++ ref .disjunction ++ tok "else" ++ ref .expression ++
        label .conditional)
      <|> ref .lambda
  | .lambda =>
    tok "lambda" ++ maybe (ref .lambdaParameters) ++ tok ":" ++ ref .expression ++
      label .lambda
  | .yieldExpression =>
    tok "yield" ++ (tok "from" ++ ref .expression <|> maybe (ref .starExpressions)) ++
      label .yield
  | .starExpressions =>
    ref .starExpression ++ maybe (comma ++ maybe (ref .starExpression ++
      furtherItems (ref .starExpression)) ++ label .tuple)
  | .starExpression => tok "*" ++ ref .bitwiseOr <|> ref .expression
  | .starNamedExpression => tok "*" ++ ref .bitwiseOr <|> ref .namedExpression
  | .starNamedExpressions => separatedTrailing (ref .starNamedExpression) comma
  | .namedExpression =>
    name ++ tok ":=" ++ ref .expression ++ label .named
      <|> ref .expression ++ absent (tok ":=")
  | .disjunction => chained (ref .conjunction) (tok "or") .boolean
  | .conjunction => chained (ref .inversion) (tok "and") .boolean
  | .inversion => tok "not" ++ ref .inversion ++ label .unary <|> ref .comparison
  | .comparison =>
    chained (ref .bitwiseOr)
      (oneOf ["==", "!=", "<=", "<", ">=", ">", "in"] <|> tok "not" ++ tok "in"
        <|> tok "is" ++ maybe (tok "not")) .comparison
  | .bitwiseOr => leftGrouped (ref .bitwiseXor) ["|"]
  | .bitwiseXor => leftGrouped (ref .bitwiseAnd) ["^"]
  | .bitwiseAnd => leftGrouped (ref .shift) ["&"]
  | .shift => leftGrouped (ref .sum) ["<<", ">>"]
  | .sum => leftGrouped (ref .term) ["+", "-"]
  | .term => leftGrouped (ref .factor) ["*", "/", "//", "%", "@"]
  | .factor => oneOf ["+", "-", "~"] ++ ref .factor ++ label .unary <|> ref .power
  | .power => ref .awaited ++ maybe (tok "**" ++ ref .factor ++ label .binary)
  | .awaited => tok "await" ++ ref .primary ++ label .await <|> ref .primary
  | .primary =>
    extend (ref .atom)
      (tok "." ++ name ++ label .attribute
        <|> tok "(" ++ ref .call ++ tok ")" ++ label .call
        <|> tok "[" ++ ref .slices ++ tok "]" ++ label .subscript)
  | .call =>
    peek (tok ")")
      <|> ref .firstArgument ++ ref .moreArguments
      <|> ref .starredArgument ++ absent (tok "=") ++ ref .moreArguments
      <|> ref .namedArguments ++ maybe comma
  | .firstArgument =>
    ref .namedExpression ++
      (ref .comprehensionClauses ++ peek (tok ")") ++ label .generator
        <|> absent (tok "=") ++ label .argument)
  | .positionalArgument =>
    ref .starredArgument ++ absent (tok "=")
      <|> ref .namedExpression ++ absent (tok "=") ++ label .argument
  | .starredArgument => tok "*" ++ ref .expression ++ label .starredArgument
  | .doubleStarredArgument => tok "**" ++ ref .expression ++ label .doubleStarredArgument
  | .keywordArgument => name ++ tok "=" ++ ref .expression ++ label .keywordArgument
  | .arguments =>
    ref .positionalArgument ++ ref .moreArguments <|> ref .namedArguments ++ maybe comma
  | .moreArguments =>
    many (comma ++ ref .positionalArgument) ++ maybe (comma ++ ref .namedArguments) ++
      maybe comma
  | .namedArguments =>
    let last := ref .doubleStarredArgument ++
      many (comma ++ (ref .keywordArgument <|> ref .doubleStarredArgument))
    ref .keywordArgument ++ many (comma ++ (ref .keywordArgument <|> ref .starredArgument)) ++
        maybe (comma ++ last)
      <|> last
  | .slices =>
    separatedTrailing (ref .slice <|> tok "*" ++ ref .expression) comma
  | .slice =>
    let upper := maybe (ref .expression) ++ maybe (tok ":" ++ maybe (ref .expression))
    tok ":" ++ upper <|> ref .expression ++ maybe (tok ":" ++ upper)
  | .atom =>
    name
      <|> oneOf ["True", "False", "None"]
      <|> ref .strings
      <|> token (.kind .number)
      <|> ref .parenthesized
      <|> ref .bracketed
      <|> ref .braced
      <|> tok "..."
  | .parenthesized =>
    tok "(" ++
      (tok ")" ++ label .tuple
        <|> ref .yieldExpression ++ tok ")" ++ label .group
        <|> ref .namedExpression ++
          (tok ")" ++ label .group
            <|> ref .comprehensionClauses ++ tok ")" ++ label .generator
            <|> peek comma ++ furtherItems (ref .starNamedExpression) ++ tok ")" ++ label .tuple)
        <|> tok "*" ++ ref .bitwiseOr ++ peek comma ++ furtherItems (ref .starNamedExpression) ++
          tok ")" ++ label .tuple)
  | .bracketed =>
    tok "[" ++
      (tok "]" ++ label .list
        <|> ref .namedExpression ++
          (ref .comprehensionClauses ++ tok "]" ++ label .listComprehension
            <|> furtherItems (ref .starNamedExpression) ++ tok "]" ++ label .list)
        <|> tok "*" ++ ref .bitwiseOr ++ furtherItems (ref .starNamedExpression) ++ tok "]" ++
          label .list)
  | .braced =>
    let setRest :=
      ref .comprehensionClauses ++ tok "\x7d" ++ label .setComprehension
        <|> furtherItems (ref .starNamedExpression) ++ tok "\x7d" ++ label .set
    tok "\x7b" ++
      (tok "\x7d" ++ label .dict
        <|> tok "**" ++ ref .bitwiseOr ++ furtherItems (ref .dictItem) ++ tok "\x7d" ++ label .dict
        <|> tok "*" ++ ref .bitwiseOr ++ furtherItems (ref .starNamedExpression) ++ tok "\x7d" ++
          label .set
        <|> peek (name ++ tok ":=") ++ ref .namedExpression ++ setRest
        <|> ref .expression ++
          (tok ":" ++ ref .expression ++
              (ref .comprehensionClauses ++ tok "\x7d" ++ label .dictComprehension
                <|> furtherItems (ref .dictItem) ++ tok "\x7d" ++ label .dict)
            <|> setRest))
  | .dictItem =>
    tok "**" ++ ref .bitwiseOr <|> ref .expression ++ tok ":" ++ ref .expression
  | .comprehensionClauses =>
    repeated (maybe (tok "async") ++ tok "for" ++ ref .starTargets ++ tok "in" ++ ref .disjunction ++
      many (tok "if" ++ ref .disjunction))
  | .strings =>
    let piece := token (.kind .string) <|> ref .formattedString
    piece ++ maybe (repeated piece ++ label .concatenated)
  | .formattedString =>
    let parts := many (token (.kind .formatText) <|> ref .field) ++ token (.kind .formatEnd)
    token .plainFormat ++ parts ++ label .formatted
      <|> token .templateFormat ++ parts ++ label .templated
  | .field =>
    tok "\x7b" ++ yieldOrExpressions ++ maybe (tok "=") ++
      maybe (tok "!" ++ oneOf ["r", "s", "a"]) ++ maybe (tok ":" ++ ref .fieldSpec) ++ tok "\x7d"
  | .fieldSpec => many (token (.kind .formatText) <|> ref .field)
  | .starTargets =>
    ref .starTarget ++ maybe (comma ++ maybe (ref .starTarget ++
      furtherItems (ref .starTarget)) ++ label .tuple)
  | .starTarget => tok "*" ++ absent (tok "*") ++ ref .starTarget <|> ref .target
  | .target => place <|> ref .starAtom
  | .starAtom =>
    let items := furtherItems (ref .starTarget)
    name
      <|> tok "(" ++
        (tok ")" ++ label .tuple
          <|> ref .target ++
            (tok ")" ++ label .group <|> peek comma ++ items ++ tok ")" ++ label .tuple)
          <|> tok "*" ++ absent (tok "*") ++ ref .starTarget ++ peek comma ++ items ++ tok ")" ++
            label .tuple)
      <|> tok "[" ++ maybe (ref .starTarget ++ items) ++ tok "]" ++ label .list
  | .singleTarget =>
    place <|> name <|> tok "(" ++ ref .singleTarget ++ tok ")" ++ label .group
  | .deleteTarget =>
    let items := furtherItems (ref .deleteTarget)
    place
      <|> name
      <|> tok "(" ++
        (tok ")" ++ label .tuple
          <|> ref .deleteTarget ++ (tok ")" ++ label .group <|> items ++ tok ")" ++ label .tuple))
      <|> tok "[" ++ maybe (ref .deleteTarget ++ items) ++ tok "]" ++ label .list

end Rule

end Bundler.Grammar
