import Exemplar.Grammar.Types
import Exemplar.Tree.Statement

/-!
# The grammar of units

A unit is a sequence of statements. Interfaces, classes, variable statements, enumerations,
function declarations and type aliases are read as such; any other statement is skipped and kept
by its first word. A word introduces a declaration only where the next token lets it, for most
of these words name variables elsewhere.

Where a semicolon may be left out, the end of the line, a closing brace or the end of the source
does its work.
-/

namespace Exemplar

open Exemplar.Tree

namespace Parser

/-! ## Semicolons and bodies -/

/-- Whether a statement may end before the current token. -/
def statementMayEnd : Parser Bool := do
  let t ← current
  return t.is ";" || t.is "\x7d" || t.isEof || t.newlineBefore

/-- The semicolon that ends a statement, unless it may be left out. -/
def semicolon : Parser Unit := do
  if ← got ";" then return ()
  else if ← statementMayEnd then return ()
  else fail (.expected ";")

/-- The body of a function, or the semicolon in place of one. -/
def functionBody : Parser Unit := do
  if ← is "\x7b" then skipGroup else semicolon

/-! ## Initial values -/

/-- Whether the parenthesis at the current token opens the parameters of an arrow function. -/
def arrowAhead : Parser Bool := do
  match ← closingBracket with
  | some i =>
    let next ← peek (i + 1)
    return next.is "=>" || next.is ":"
  | none => return false

/-- Whether the angle bracket at the current token opens the type parameters of an arrow
function. -/
def genericArrowAhead : Parser Bool := do
  match ← closingAngle with
  | some i => return (← peek (i + 1)).is "("
  | none => return false

/-- The parameters of an arrow function that has a single name for them. -/
def bareParameter : Parser Parameter := do
  let start ← here
  let name ← identifier
  return .mk (← spanFrom start) [] (some name) false false .absent

/-- What stands before the arrow of a function literal: type parameters, parameters and the
result type. -/
def arrowSignature :
    Parser (Option (List TypeParameter) × List Parameter × TypeExpr) := do
  if ← isIdent then
    let param ← bareParameter
    return (none, [param], .absent)
  else
    let generics ← typeParameters? typeExpr
    let params ← parameters typeExpr
    let result ← resultType? typeExpr
    return (generics, params, result)

/-- Consumes what stands behind the arrow of a function literal. -/
def arrowBody : Parser Unit := do
  if ← is "\x7b" then skipGroup else skipExpression

/-- A function literal with an arrow. -/
def arrowFunction (start : Position) (modifiers : Modifiers) : Parser Expression := do
  let signature ← arrowSignature
  expect "=>"
  arrowBody
  return .arrow (← spanFrom start) modifiers signature.1 signature.2.1 signature.2.2

/-- An identifier, if one is the current token. -/
def identifier? : Parser (Option Identifier) := do
  if ← isIdent then return some (← identifier) else return none

/-- Consumes the group at the current token, if a brace opens one. -/
def skipBlock : Parser Unit := do
  if ← is "\x7b" then skipGroup

/-- A function literal with the word `function`. -/
def functionExpression (start : Position) (modifiers : Modifiers) : Parser Expression := do
  expect "function"
  let _ ← got "*"
  let name ← identifier?
  let generics ← typeParameters? typeExpr
  let params ← parameters typeExpr
  let result ← resultType? typeExpr
  skipBlock
  return .function (← spanFrom start) modifiers name generics params result

/-- Whether `async` at the current token makes a function literal asynchronous. -/
def asyncAhead : Parser Bool := do
  if ← ahead (·.is "async") (fun t =>
      !t.newlineBefore && (t.is "function" || t.is "(" || t.is "<")) then return true
  else ahead₃ (·.is "async") (fun t => !t.newlineBefore && t.isIdent) (·.is "=>")

/-- Consumes `async` if it makes a function literal asynchronous. -/
def asyncModifier : Parser Modifiers := do
  if ← asyncAhead then
    let _ ← advance
    return [.asynchronous]
  else return []

/-- Whether a function literal with an arrow starts at the current token. -/
def arrowFunctionAhead : Parser Bool := do
  let t ← current
  if t.is "(" then arrowAhead
  else if t.is "<" then genericArrowAhead
  else ahead (·.isIdent) (fun next => next.is "=>" && !next.newlineBefore)

/-- An initial value. Only the signature of a function literal is kept. -/
def initializer : Parser Expression := do
  let start ← here
  let modifiers ← asyncModifier
  if ← is "function" then functionExpression start modifiers
  else if ← arrowFunctionAhead then arrowFunction start modifiers
  else
    skipExpression
    return .other (← spanFrom start)

/-! ## Classes -/

/-- The words that may stand before a member of a class. -/
def memberModifiers : List String :=
  ["public", "private", "protected", "static", "readonly", "abstract", "override", "declare",
   "accessor", "async"]

/-- Consumes `get` or `set` if the key of a member follows it. -/
def skipAccessorWord : Parser Unit := do
  if ← accessorAhead then
    let _ ← advance

/-- A constructor of a class. -/
def constructorMember (start : Position) (modifiers : Modifiers) : Parser ClassMember := do
  let _ ← advance
  let params ← parameters typeExpr
  functionBody
  return .constructor (← spanFrom start) modifiers params

/-- A static block of a class. -/
def staticBlock (start : Position) : Parser ClassMember := do
  let _ ← advance
  skipGroup
  return .other (← spanFrom start)

/-- An index signature of a class, of which nothing is kept. -/
def indexMember (start : Position) : Parser ClassMember := do
  let _ ← indexSignature typeExpr start
  semicolon
  return .other (← spanFrom start)

/-- A property or a method of a class. -/
def namedClassMember (start : Position) (modifiers : Modifiers) : Parser ClassMember := do
  let name ← propertyName
  skipEither "?" "!"
  if startsSignature (← current) then
    let generics ← typeParameters? typeExpr
    let params ← parameters typeExpr
    let result ← resultType? typeExpr
    functionBody
    return .method (← spanFrom start) modifiers name generics params result
  else
    let annotation ← typeBehind ":" typeExpr
    skipDefault
    semicolon
    return .property (← spanFrom start) modifiers name annotation

/-- A member of a class. -/
def classMember : Parser ClassMember := do
  let start ← here
  skipDecorators
  if ← ahead (·.is "static") (·.is "\x7b") then staticBlock start
  else
    let modifiers ← modifiersWhile (ahead (isWordOf memberModifiers) startsKey)
    skipAccessorWord
    let _ ← got "*"
    if ← ahead (·.is "constructor") (·.is "(") then constructorMember start modifiers
    else if ← indexSignatureAhead then indexMember start
    else namedClassMember start modifiers

/-- The next member of a class, unless the closing brace stands there. A semicolon alone counts
as no member. -/
def nextClassMember : Parser (Option (Option ClassMember)) := do
  if ← is "\x7d" then return none
  else if ← isEof then fail (.expected "\x7d")
  else if ← got ";" then return some none
  else
    let m ← classMember
    return some (some m)

/-- The members of a class, with their braces. -/
def classMembers : Parser (List ClassMember) := do
  expect "\x7b"
  let found ← collect nextClassMember
  expect "\x7d"
  return found.filterMap id

/-- The class that a class extends, if nothing but a plain reference stands there. -/
def plainBase : Parser (Option TypeExpr) := do
  if ← isIdent then
    let ref ← typeReference typeExpr
    let t ← current
    if t.is "\x7b" || t.is "implements" then return some ref
    else return none
  else return none

/-- Consumes a bracket group, or a single token. -/
def skipItem : Parser Unit := do
  let t ← current
  if t.is "(" || t.is "[" then skipGroup
  else
    let _ ← advance

/-- Whether the expression that a class extends goes on with a token. -/
def continuesBase (t : Token) : Bool := !t.isEof && !t.is "\x7b" && !t.is "implements"

/-- The class that a class extends. Anything but a plain reference is skipped. -/
def baseClass : Parser TypeExpr := do
  match ← plainBase with
  | some ref => return ref
  | none =>
    whileDo (do return continuesBase (← current)) skipItem
    return .absent

/-- The name of a class, if it has one. -/
def className : Parser (Option Identifier) := do
  let t ← current
  if t.isIdent && !t.is "extends" && !t.is "implements" then return some (← identifier)
  else return none

/-- The class that a class extends, if it extends one. -/
def extendsClause : Parser TypeExpr := do
  if ← got "extends" then baseClass else return .absent

/-- References behind a word, if the word is there. -/
def referencesBehind (word : String) : Parser (List TypeExpr) := do
  if ← got word then commaList₁ (typeReference typeExpr) else return []

/-- A class. -/
def classDecl (start : Position) (modifiers : Modifiers) : Parser Statement := do
  expect "class"
  let name ← className
  let generics ← typeParameters? typeExpr
  let base ← extendsClause
  let interfaces ← referencesBehind "implements"
  let found ← classMembers
  return .classDecl ⟨← spanFrom start, modifiers, name, generics, base, interfaces, found⟩

/-! ## Other declarations -/

/-- An interface. -/
def interfaceDecl (start : Position) (modifiers : Modifiers) : Parser Statement := do
  expect "interface"
  let name ← identifier
  let generics ← typeParameters? typeExpr
  let bases ← referencesBehind "extends"
  let found ← members typeExpr
  return .interfaceDecl ⟨← spanFrom start, modifiers, name, generics, bases, found⟩

/-- The source from a place to the end of the token consumed last. There is none when the place
lies behind that end. -/
def sourceFrom (start : Position) : Parser Text := do
  let c ← get
  if c.lastStop.offset < start.offset || c.source.byteSize < c.lastStop.offset then
    throw (.crash .noSuchSlice)
  return c.source.slice start.offset c.lastStop.offset

/-- The key of a member of an enumeration, as written. -/
def enumMemberName : Parser Text := do
  let start ← here
  let t ← current
  if t.isIdent || t.kind == .string || t.kind == .number then return (← advance).text
  else if t.is "[" then
    skipGroup
    sourceFrom start
  else fail .enumMemberNameExpected

/-- The text of the initial value of a member of an enumeration, empty when there is none. -/
def enumMemberValue : Parser Text := do
  if ← got "=" then
    let start ← here
    skipExpression
    sourceFrom start
  else return []

/-- A member of an enumeration. -/
def enumMember : Parser EnumMember := do
  let start ← here
  let name ← enumMemberName
  let value ← enumMemberValue
  return ⟨← spanFrom start, name, value⟩

/-- An enumeration. -/
def enumDecl (start : Position) (modifiers : Modifiers) : Parser Statement := do
  expect "enum"
  let name ← identifier
  expect "\x7b"
  let found ← commaList "\x7d" enumMember
  expect "\x7d"
  return .enumDecl ⟨← spanFrom start, modifiers, name, found⟩

/-- What a variable is bound to: its name, or a pattern, which is skipped. -/
def bindingName : Parser (Option Identifier) := do
  if ← isIdent then return some (← identifier)
  else
    skipGroup
    return none

/-- The initial value of a variable, if one is written. -/
def initializer? : Parser (Option Expression) := do
  if ← got "=" then return some (← initializer) else return none

/-- One variable. -/
def declarator : Parser Declarator := do
  let start ← here
  let name ← bindingName
  let _ ← got "!"
  let annotation ← typeBehind ":" typeExpr
  let value ← initializer?
  return ⟨← spanFrom start, name, annotation, value⟩

/-- One variable, unless none starts at the current token. -/
def declarator? : Parser (Option Declarator) := do
  if startsBinding (← current) then return some (← declarator) else return none

/-- One more variable, if a comma stands before it. -/
def nextDeclarator : Parser (Option Declarator) := do
  if ← got "," then declarator? else return none

/-- The variables of a variable statement. -/
def declarators : Parser (List Declarator) := do
  match ← declarator? with
  | none => return []
  | some first =>
    let more ← collect nextDeclarator
    return first :: more

/-- The end of a variable statement. What its last initial value leaves behind belongs to it. -/
def variablesEnd : Parser Unit := do
  if ← got ";" then return ()
  else if ← statementMayEnd then return ()
  else skipStatement

/-- A variable statement. -/
def variableDecl (start : Position) (modifiers : Modifiers) : Parser Statement := do
  let keyword ← advance
  let found ← declarators
  variablesEnd
  return .variables ⟨← spanFrom start, modifiers, keyword.text, found⟩

/-- A function declaration. -/
def functionDecl (start : Position) (modifiers : Modifiers) : Parser Statement := do
  expect "function"
  let _ ← got "*"
  let name ← identifier?
  let generics ← typeParameters? typeExpr
  let params ← parameters typeExpr
  let result ← resultType? typeExpr
  functionBody
  return .functionDecl ⟨← spanFrom start, modifiers, name, generics, params, result⟩

/-- A type alias. -/
def typeAlias (start : Position) (modifiers : Modifiers) : Parser Statement := do
  expect "type"
  let name ← identifier
  let generics ← typeParameters? typeExpr
  expect "="
  let type ← typeExpr
  semicolon
  return .typeAlias ⟨← spanFrom start, modifiers, name, generics, type⟩

/-! ## Statements -/

/-- Whether the current token is a modifier of the statement it starts, given the modifiers
before it and the token behind it. -/
def isStatementModifier (before : Modifiers) (t next : Token) : Bool :=
  (t.is "export" && next.isIdent && next.text != Text.ofString "as")
    || (t.is "default" && Modifiers.has before .exported)
    || (t.is "declare" && next.isIdent && !next.newlineBefore)
    || (t.is "abstract" && next.is "class" && !next.newlineBefore)
    || (t.is "const" && next.is "enum")
    || (t.is "async" && next.is "function" && !next.newlineBefore)

/-- The modifiers of a statement with one more, if the current token is one. -/
def modifierRound (before : Modifiers) : Parser (Option Modifiers) := do
  let next ← peek 1
  let t ← current
  if isStatementModifier before t next then
    let _ ← advance
    return some (before ++ (Modifier.ofWord? t.text).toList)
  else return none

/-- The modifiers of a statement. -/
def statementModifiers : Parser Modifiers := iterate modifierRound []

/-- A statement outside the declarations, kept by its first word. -/
def otherStatement (start : Position) (first : Text) : Parser Statement := do
  skipStatement
  return .other (← spanFrom start) first

/-- A statement behind its decorators, the first of its words being given. -/
def statementFrom (start : Position) (first : Text) : Parser Statement := do
  let modifiers ← statementModifiers
  if ← ahead (·.is "interface") (·.isIdent) then interfaceDecl start modifiers
  else if ← is "class" then classDecl start modifiers
  else if ← ahead (·.is "enum") (·.isIdent) then enumDecl start modifiers
  else if (← is "const") || (← is "var") then variableDecl start modifiers
  else if ← ahead (·.is "let") startsBinding then variableDecl start modifiers
  else if ← is "function" then functionDecl start modifiers
  else if ← ahead (·.is "type") (fun next => next.isIdent && !next.newlineBefore) then
    typeAlias start modifiers
  else otherStatement start first

/-- A statement, unless only a semicolon stands there. -/
def statement? : Parser (Option Statement) := do
  let start ← here
  if ← got ";" then return none
  else
    skipDecorators
    let first ← current
    return some (← statementFrom start first.text)

/-- The next statement, unless the source ends. A semicolon alone counts as no statement. -/
def nextStatement : Parser (Option (Option Statement)) := do
  if ← isEof then return none else return some (← statement?)

/-- All statements of a unit with a given name. -/
def sourceUnit (name : String) : Parser SourceUnit := do
  let start ← here
  let found ← collect nextStatement
  return ⟨← spanFrom start, name, found.filterMap id⟩

end Parser

/-- Reads a type. -/
def Tree.TypeExpr.parse (source : Text) : Except Halt Tree.TypeExpr :=
  Parser.run Parser.wholeType source

/-- Reads a unit. -/
def Tree.SourceUnit.parse (name : String) (source : Text) : Except Halt Tree.SourceUnit :=
  Parser.run (Parser.sourceUnit name) source

end Exemplar
