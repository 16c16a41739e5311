import Exemplar.Grammar.Brackets
import Exemplar.Tree.TypeExpr

/-!
# The grammar of types

A type is a function or constructor type, or a union of intersections of types with operators,
array brackets and atoms, possibly the subject of a condition. The levels call each other in a
fixed order, and a level calls itself, or one above it, only behind a token it has consumed.

That is how the grammar is written down. Each rule is a parser that takes the parsers for the
nested occurrences as an argument, a `Nested`, and `nested` closes the circle by recursion on a
number: the number of tokens ahead, which every nested occurrence makes smaller. The rules
themselves are plain definitions, and each can be read and reasoned about alone.

Words such as `keyof` or `infer` are operators only where a type follows; elsewhere they are
names of types like any other word.
-/

namespace Exemplar

open Exemplar.Tree

namespace Parser

/-! ## Names -/

/-- An identifier. -/
def identifier : Parser Identifier := do
  if ← isIdent then
    let t ← advance
    return ⟨t.span, t.text⟩
  else fail .identifierExpected

/-- The next part of a name with dots, if there is one. -/
def namePart : Parser (Option Text) := do
  if ← ahead (·.is ".") (·.isIdent) then
    let _ ← advance
    return some (← advance).text
  else return none

/-- A name with dots, such as `a.b.C`, as one identifier. -/
def entityName : Parser Identifier := do
  let start ← here
  let first ← identifier
  let more ← collect namePart
  let text := more.foldl (fun name part => name ++ Text.ofString "." ++ part) first.text
  return ⟨← spanFrom start, text⟩

/-- Decorators before a declaration, a member or a parameter; nothing is kept of them. -/
def skipDecorators : Parser Unit :=
  whileDo (got "@") do
    let _ ← entityName
    if ← is "(" then skipGroup

/-- The key of a member. A key that is a literal or computed is consumed and has no name. -/
def propertyName : Parser (Option Identifier) := do
  let t ← current
  if t.isIdent then return some (← identifier)
  else if t.kind == .string || t.kind == .number then
    let _ ← advance
    return none
  else if t.is "[" then
    skipGroup
    return none
  else fail .propertyNameExpected

/-- Whether a token can start the key of a member. -/
def startsKey (t : Token) : Bool :=
  t.isIdent || t.kind == .string || t.kind == .number || t.is "[" || t.is "*" || t.is "\x7b"

/-- Whether a token can start what a variable or parameter is bound to. -/
def startsBinding (t : Token) : Bool := t.isIdent || t.is "\x7b" || t.is "["

/-! ## Parameters -/

/-- The words that may stand before a parameter. -/
def parameterModifiers : List String :=
  ["public", "private", "protected", "readonly", "override"]

/-- The current token as a modifier, if `test` accepts it as one. -/
def modifierWord (test : Parser Bool) : Parser (Option Text) := do
  if ← test then return some (← advance).text else return none

/-- Modifiers, as long as `test` accepts the current token as one. -/
def modifiersWhile (test : Parser Bool) : Parser Modifiers := do
  let words ← collect (modifierWord test)
  return words.filterMap Modifier.ofWord?

/-- Whether a token is one of the given words, written as an identifier. -/
def isWordOf (words : List String) (t : Token) : Bool :=
  t.isIdent && words.any (fun w => t.text == Text.ofString w)

/-- What a parameter is bound to: its name, or a pattern, which is skipped. -/
def parameterName : Parser (Option Identifier) := do
  let t ← current
  if t.isIdent then return some (← identifier)
  else if t.is "\x7b" || t.is "[" then
    skipGroup
    return none
  else fail .parameterNameExpected

/-- The type behind a mark such as a colon, if the mark is there. -/
def typeBehind (mark : String) (type : Parser TypeExpr) : Parser TypeExpr := do
  if ← got mark then type else return .absent

/-- Consumes an initial value behind its sign, if there is one. -/
def skipDefault : Parser Unit := do
  if ← got "=" then skipExpression

/-- A parameter, whose annotation is read by `type`. -/
def parameter (type : Parser TypeExpr) : Parser Parameter := do
  let start ← here
  skipDecorators
  let modifiers ← modifiersWhile (ahead (isWordOf parameterModifiers) startsBinding)
  let rest ← got "..."
  let name ← parameterName
  let optional ← got "?"
  let annotation ← typeBehind ":" type
  skipDefault
  return .mk (← spanFrom start) modifiers name rest optional annotation

/-- The parameters of a signature, with their parentheses. -/
def parameters (type : Parser TypeExpr) : Parser (List Parameter) := do
  expect "("
  let params ← commaList ")" (parameter type)
  expect ")"
  return params

/-- A type parameter, whose bound and default are read by `type`. -/
def typeParameter (type : Parser TypeExpr) : Parser TypeParameter := do
  let start ← here
  whileDo (ahead (fun t => t.is "const" || t.is "in" || t.is "out") (·.isIdent))
    (do let _ ← advance)
  let name ← identifier
  let bound ← typeBehind "extends" type
  let fallback ← typeBehind "=" type
  return .mk (← spanFrom start) name bound fallback

/-- A list of type parameters, if one is written. -/
def typeParameters? (type : Parser TypeExpr) : Parser (Option (List TypeParameter)) := do
  if ← got "<" then
    let params ← commaList ">" (typeParameter type)
    expect ">"
    return some params
  else return none

/-! ## Members of interfaces and object types -/

/-- A result type, which may be a predicate. -/
def returnType (type : Parser TypeExpr) : Parser TypeExpr := do
  let start ← here
  if ← ahead (·.is "asserts") (fun t => t.isIdent && !t.newlineBefore) then
    let _ ← advance
    let name ← advance
    let subject ← typeBehind "is" type
    return .predicate (← spanFrom start) name.text subject
  else if ← ahead (·.isIdent) (fun t => t.is "is" && !t.newlineBefore) then
    let name ← advance
    let _ ← advance
    let subject ← type
    return .predicate (← spanFrom start) name.text subject
  else type

/-- The result type behind a colon, if there is one. -/
def resultType? (type : Parser TypeExpr) : Parser TypeExpr := do
  if ← got ":" then returnType type else pure .absent

/-- A call or construct signature. -/
def callSignature (type : Parser TypeExpr) (start : Position) (construct : Bool) :
    Parser Member := do
  let generics ← typeParameters? type
  let params ← parameters type
  let result ← resultType? type
  return .call (← spanFrom start) construct generics params result

/-- Whether an index signature starts at the current token. -/
def indexSignatureAhead : Parser Bool := ahead₃ (·.is "[") (·.isIdent) (·.is ":")

/-- An index signature. -/
def indexSignature (type : Parser TypeExpr) (start : Position) : Parser Member := do
  expect "["
  let params ← commaList "]" (parameter type)
  expect "]"
  let result ← typeBehind ":" type
  return .index (← spanFrom start) params result

/-- Whether a token starts the parameters of a signature, with or without type parameters. -/
def startsSignature (t : Token) : Bool := t.is "(" || t.is "<"

/-- Whether an accessor starts at the current token. -/
def accessorAhead : Parser Bool := ahead (fun t => t.is "get" || t.is "set") startsKey

/-- An accessor of an interface or an object type. -/
def accessorSignature (type : Parser TypeExpr) (start : Position) : Parser Member := do
  let word ← advance
  let name ← propertyName
  let params ← parameters type
  let result ← resultType? type
  return .accessor (← spanFrom start) (word.is "set") name params result

/-- A property or a method of an interface or an object type. -/
def namedMember (type : Parser TypeExpr) (start : Position) (modifiers : Modifiers) :
    Parser Member := do
  let name ← propertyName
  let optional ← got "?"
  if startsSignature (← current) then
    let generics ← typeParameters? type
    let params ← parameters type
    let result ← resultType? type
    return .method (← spanFrom start) name optional generics params result
  else
    let annotation ← typeBehind ":" type
    return .property (← spanFrom start) modifiers name optional annotation

/-- Consumes `readonly` if the key of a member follows it. -/
def readonlyModifier : Parser Modifiers := do
  if ← ahead (·.is "readonly") startsKey then
    let _ ← advance
    return [.readonly]
  else return []

/-- A member of an interface or an object type. -/
def member (type : Parser TypeExpr) : Parser Member := do
  let start ← here
  if startsSignature (← current) then callSignature type start false
  else if ← ahead (·.is "new") startsSignature then
    let _ ← advance
    callSignature type start true
  else
    let modifiers ← readonlyModifier
    if ← accessorAhead then accessorSignature type start
    else if ← indexSignatureAhead then indexSignature type start
    else namedMember type start modifiers

/-- What stands between a member and the next: a semicolon, a comma, a line break, or nothing
before the closing brace. -/
def memberEnd : Parser Unit := do
  if ← got ";" then return ()
  else if ← got "," then return ()
  else
    let t ← current
    if t.is "\x7d" || t.newlineBefore || t.isEof then return ()
    else fail (.expected ";")

/-- The next member, unless the closing brace stands there. A separator alone counts as no
member. -/
def nextMember (type : Parser TypeExpr) : Parser (Option (Option Member)) := do
  if ← is "\x7d" then return none
  else if ← isEof then fail (.expected "\x7d")
  else if ← got ";" then return some none
  else if ← got "," then return some none
  else
    let m ← member type
    memberEnd
    return some (some m)

/-- The members of an interface or an object type, with their braces. Members are separated by
semicolons, commas or line breaks. -/
def members (type : Parser TypeExpr) : Parser (List Member) := do
  expect "\x7b"
  let found ← collect (nextMember type)
  expect "\x7d"
  return found.filterMap id

/-! ## Types -/

/-- The parsers for types nested in a type. -/
structure Nested where
  /-- A type of any form. -/
  type : Parser TypeExpr
  /-- A union, or a type of a lower level. -/
  union : Parser TypeExpr
  /-- A type behind operators, or a type of a lower level. -/
  operator : Parser TypeExpr

/-- The predefined types. -/
def predefinedTypes : List String :=
  ["string", "number", "boolean", "void", "symbol", "object", "any", "unknown", "never",
   "undefined", "null", "bigint", "this", "intrinsic"]

/-- Whether a word is a predefined type. -/
def isPredefined (word : Text) : Bool := predefinedTypes.any (fun w => word == Text.ofString w)

/-- Whether a token can start the type behind an operator. -/
def startsType (t : Token) : Bool :=
  match t.kind with
  | .ident | .string | .number | .template => true
  | .punct => t.is "(" || t.is "[" || t.is "\x7b" || t.is "-" || t.is "<"
  | _ => false

/-- Type arguments, with their angle brackets. -/
def typeArguments (type : Parser TypeExpr) : Parser (List TypeExpr) := do
  expect "<"
  let args ← commaList ">" type
  expect ">"
  return args

/-- Whether a list of type arguments starts at the current token, on the same line. -/
def argumentsAhead : Parser Bool := do
  let t ← current
  return t.is "<" && !t.newlineBefore

/-- A list of type arguments, if one starts at the current token. -/
def typeArguments? (type : Parser TypeExpr) : Parser (Option (List TypeExpr)) := do
  if ← argumentsAhead then return some (← typeArguments type) else return none

/-- A named type with its arguments. -/
def typeReference (type : Parser TypeExpr) : Parser TypeExpr := do
  let start ← here
  let name ← entityName
  let args ← typeArguments? type
  return .reference (← spanFrom start) (some name) args

/-- Whether a named element of a tuple type starts at the current token. -/
def namedElementAhead : Parser Bool := do
  if ← ahead (·.isIdent) (·.is ":") then return true
  else ahead₃ (·.isIdent) (·.is "?") (·.is ":")

/-- An element of a tuple type. -/
def tupleElement (type : Parser TypeExpr) : Parser TypeExpr := do
  let start ← here
  if ← ahead₃ (·.is "...") (·.isIdent) (·.is ":") then
    let _ ← advance
    let name ← identifier
    expect ":"
    let t ← type
    return .namedElement (← spanFrom start) name false true t
  else if ← got "..." then
    let t ← type
    return .rest (← spanFrom start) t
  else if ← namedElementAhead then
    let name ← identifier
    let optional ← got "?"
    expect ":"
    let t ← type
    return .namedElement (← spanFrom start) name optional false t
  else
    let t ← type
    if ← got "?" then return .optional (← spanFrom start) t
    else return t

/-- A tuple type. -/
def tupleType (type : Parser TypeExpr) (start : Position) : Parser TypeExpr := do
  expect "["
  let elements ← commaList "]" (tupleElement type)
  expect "]"
  return .tuple (← spanFrom start) elements

/-- Whether the brace at the current token opens a mapped type. -/
def mappedTypeAhead : Parser Bool := do
  let sign ← peek 1
  let i := if sign.is "+" || sign.is "-" then 2 else 1
  let word ← peek i
  let j := if word.is "readonly" then i + 1 else i
  if (← peek j).is "[" then
    if (← peek (j + 1)).isIdent then return (← peek (j + 2)).is "in" else return false
  else return false

/-- Consumes the first of two words that is the current token, if either is. -/
def skipEither (a b : String) : Parser Unit := do
  if ← got a then return ()
  else
    let _ ← got b

/-- The parameter of a mapped type, with its brackets. The type behind `as` is not kept. -/
def mappedParameter (type : Parser TypeExpr) : Parser TypeParameter := do
  expect "["
  let start ← here
  let name ← identifier
  expect "in"
  let bound ← type
  let span ← spanFrom start
  let _ ← typeBehind "as" type
  expect "]"
  return .mk span name bound .absent

/-- A mapped type. -/
def mappedType (type : Parser TypeExpr) (start : Position) : Parser TypeExpr := do
  expect "\x7b"
  skipEither "+" "-"
  let _ ← got "readonly"
  let param ← mappedParameter type
  skipEither "+" "-"
  let _ ← got "?"
  let value ← typeBehind ":" type
  skipEither ";" ","
  expect "\x7d"
  return .mapped (← spanFrom start) param value

/-- A literal type that is the current token. -/
def literalType (start : Position) : Parser TypeExpr := do
  let t ← advance
  return .literal (← spanFrom start) t.text

/-- The type of a value. -/
def typeQuery (type : Parser TypeExpr) (start : Position) : Parser TypeExpr := do
  let _ ← advance
  let name ← entityName
  let _ ← typeArguments? type
  return .query (← spanFrom start) name

/-- A type that starts with a word. -/
def wordType (type : Parser TypeExpr) (start : Position) : Parser TypeExpr := do
  let t ← current
  if ← ahead (fun t => isPredefined t.text) (fun next => !next.is ".") then
    let _ ← advance
    return .keyword (← spanFrom start) t.text
  else if t.is "true" || t.is "false" then literalType start
  else if ← ahead (·.is "typeof") (fun next => !next.is ".") then typeQuery type start
  else typeReference type

/-- A type in parentheses. -/
def parenthesizedType (type : Parser TypeExpr) (start : Position) : Parser TypeExpr := do
  let _ ← advance
  let inner ← type
  expect ")"
  return .parenthesized (← spanFrom start) inner

/-- A negative number. -/
def negativeType (start : Position) : Parser TypeExpr := do
  let _ ← advance
  let n ← advance
  return .literal (← spanFrom start) (Text.ofString "-" ++ n.text)

/-- A mapped type or an object type. -/
def bracedType (type : Parser TypeExpr) (start : Position) : Parser TypeExpr := do
  if ← mappedTypeAhead then mappedType type start
  else
    let ms ← members type
    return .object (← spanFrom start) ms

/-- A type that starts with a punctuator. -/
def markedType (type : Parser TypeExpr) (start : Position) : Parser TypeExpr := do
  let t ← current
  if ← ahead (·.is "-") (·.kind == .number) then negativeType start
  else if t.is "(" then parenthesizedType type start
  else if t.is "[" then tupleType type start
  else if t.is "\x7b" then bracedType type start
  else fail .typeExpected

/-- A type that is no array and has no operator. -/
def atomType (type : Parser TypeExpr) : Parser TypeExpr := do
  let start ← here
  let t ← current
  match t.kind with
  | .ident => wordType type start
  | .string | .number | .template => literalType start
  | .punct => markedType type start
  | _ => fail .typeExpected

/-- The type with the pair of brackets behind it, if there is one on the same line: empty
brackets make an array, others an indexed access. -/
def bracketed? (type : Parser TypeExpr) (t : TypeExpr) : Parser (Option TypeExpr) := do
  let bracket ← current
  if bracket.is "[" && !bracket.newlineBefore then
    let _ ← advance
    if ← got "]" then return some (.array (← spanFrom t.span.start) t)
    else
      let index ← type
      expect "]"
      return some (.indexed (← spanFrom t.span.start) t index)
  else return none

/-- An atom with the brackets behind it. -/
def postfixType (type : Parser TypeExpr) : Parser TypeExpr := do
  let atom ← atomType type
  iterate (bracketed? type) atom

/-- Whether a token is an operator on types. -/
def isTypeOperator (t : Token) : Bool := t.is "keyof" || t.is "unique" || t.is "readonly"

/-- Whether the current token is `extends` on the same line as the token before. -/
def extendsAhead : Parser Bool := do
  let t ← current
  return t.is "extends" && !t.newlineBefore

/-- The bound of a type variable, if one is written. -/
def inferBound (union : Parser TypeExpr) : Parser TypeExpr := do
  if ← extendsAhead then
    let _ ← advance
    union
  else return .absent

/-- A type behind operators. -/
def operatorType (nested : Nested) : Parser TypeExpr := do
  let start ← here
  let t ← current
  if ← ahead isTypeOperator startsType then
    let _ ← advance
    let inner ← nested.operator
    return .operator (← spanFrom start) t.text inner
  else if ← ahead (·.is "infer") (·.isIdent) then
    let _ ← advance
    let name ← identifier
    let bound ← inferBound nested.union
    let span ← spanFrom start
    return .infer span (.mk span name bound .absent)
  else postfixType nested.type

/-- Items with a separator between them, which may also stand before the first. One item is that
item; several are combined by `build`. -/
def separated (separator : String) (item : Parser TypeExpr)
    (build : Span → List TypeExpr → TypeExpr) : Parser TypeExpr := do
  let start ← here
  let _ ← got separator
  let first ← item
  let more ← collect (itemBehind separator item)
  match more with
  | [] => return first
  | _ => return build (← spanFrom start) (first :: more)

/-- An intersection, or a type of a lower level. -/
def intersectionType (nested : Nested) : Parser TypeExpr :=
  separated "&" (operatorType nested) .intersection

/-- A union, or a type of a lower level. -/
def unionType (nested : Nested) : Parser TypeExpr :=
  separated "|" (intersectionType nested) .union

/-- Whether a function type starts at the current token. -/
def functionTypeAhead : Parser Bool := do
  let t ← current
  if t.is "<" then return true
  else if t.is "(" then
    match ← closingBracket with
    | some i => return (← peek (i + 1)).is "=>"
    | none => return false
  else return false

/-- A function type. -/
def functionType (type : Parser TypeExpr) (start : Position) : Parser TypeExpr := do
  let generics ← typeParameters? type
  let params ← parameters type
  expect "=>"
  let result ← returnType type
  return .function (← spanFrom start) generics params result

/-- A constructor type. -/
def constructorType (type : Parser TypeExpr) (start : Position) : Parser TypeExpr := do
  let _ ← got "abstract"
  expect "new"
  let _ ← typeParameters? type
  let params ← parameters type
  expect "=>"
  let result ← returnType type
  return .constructor (← spanFrom start) params result

/-- Whether a constructor type starts at the current token. -/
def constructorTypeAhead : Parser Bool := do
  if ← is "new" then return true
  else ahead (·.is "abstract") (·.is "new")

/-- A type that is neither a function nor a constructor type: a union, or a condition on one. -/
def conditionalType (nested : Nested) (start : Position) : Parser TypeExpr := do
  let check ← unionType nested
  if ← extendsAhead then
    let _ ← advance
    let bound ← unionType nested
    expect "?"
    let whenTrue ← nested.type
    expect ":"
    let whenFalse ← nested.type
    return .conditional (← spanFrom start) check bound whenTrue whenFalse
  else return check

/-- A type of any form. -/
def anyType (nested : Nested) : Parser TypeExpr := do
  let start ← here
  if ← functionTypeAhead then functionType nested.type start
  else if ← constructorTypeAhead then constructorType nested.type start
  else conditionalType nested start

/-- The parsers for types nested to a given depth. -/
def nested : Nat → Nested
  | 0 => ⟨throw .exhausted, throw .exhausted, throw .exhausted⟩
  | depth + 1 =>
    let inner := nested depth
    ⟨anyType inner, unionType inner, operatorType inner⟩

/-- A type. The tokens ahead bound how deep types can nest. -/
def typeExpr : Parser TypeExpr := do
  (nested ((← get).rest.length + 1)).type

/-- A type and nothing behind it. -/
def wholeType : Parser TypeExpr := do
  let t ← typeExpr
  if ← isEof then return t else fail .trailingToken

end Parser

end Exemplar
