import IncentivePay.Decimal.Shortest
import IncentivePay.Formula.Vocabulary

/-!
# Tokens and syntax errors

A formula text is a list of tokens, each at the position of its first
character; positions count characters.  A syntax error is a cause and the
position where it was found.  The causes hold what they speak of, and
`SyntaxFault.message` words them.
-/

namespace IncentivePay.Formula

/-- A token of a formula text. -/
inductive Token
  | number (value : Binary64)
  | identifier (name : String)
  | operator (mark : Operator)
  | question
  | colon
  | leftParen
  | rightParen
  | comma
deriving DecidableEq

/-- The text of a token in messages. -/
def Token.text : Token → String
  | .number value => "number " ++ value.text
  | .identifier name => "identifier '" ++ name ++ "'"
  | .operator mark => "'" ++ mark.symbol ++ "'"
  | .question => "'?'"
  | .colon => "':'"
  | .leftParen => "'('"
  | .rightParen => "')'"
  | .comma => "','"

/-- A token and the position of its first character. -/
structure Located where
  token : Token
  position : Nat
deriving DecidableEq

/-- What the grammar asks for at a place. -/
inductive Expectation
  | operand
  | token (expected : Token)
deriving DecidableEq

/-- The text of an expectation in messages. -/
def Expectation.text : Expectation → String
  | .operand => "a number, variable, call or '('"
  | .token expected => expected.text

/-- Why a text is not a formula. -/
inductive SyntaxFault
  | empty
  | tooLong (actual limit : Nat)
  | tooDeep (limit : Nat)
  | unexpectedCharacter (character : Char)
  | stringLiteral
  | invalidNumber (text : String)
  | unknownIdentifier (name : String)
  | unknownFunction (name : String)
  | functionNotCalled (function : Function)
  | wrongArgumentCount (function : Function) (found : Nat)
  | unexpectedToken (found : Token) (expected : Expectation)
  | unexpectedEnd (expected : Expectation)
  | trailingInput (found : Token)
deriving DecidableEq

/-- The wording of a fault, without its position. -/
def SyntaxFault.message : SyntaxFault → String
  | .empty => "Formula is empty"
  | .tooLong actual limit =>
      "Formula length " ++ toString actual ++ " exceeds maximum " ++
        toString limit
  | .tooDeep limit => "Nesting depth exceeds maximum " ++ toString limit
  | .unexpectedCharacter character =>
      "Unexpected character '" ++ character.toString ++ "'"
  | .stringLiteral => "String literals are not allowed"
  | .invalidNumber text => "Invalid number '" ++ text ++ "'"
  | .unknownIdentifier name => "Unknown identifier '" ++ name ++ "'"
  | .unknownFunction name => "Function '" ++ name ++ "' is not allowed"
  | .functionNotCalled function =>
      "Function '" ++ function.name ++ "' must be called with parentheses"
  | .wrongArgumentCount function found =>
      "Function '" ++ function.name ++ "' expects " ++
        toString function.arity ++ " argument(s), found " ++ toString found
  | .unexpectedToken found expected =>
      "Unexpected " ++ found.text ++ ", expected " ++ expected.text
  | .unexpectedEnd expected =>
      "Unexpected end of formula, expected " ++ expected.text
  | .trailingInput found => "Unexpected trailing " ++ found.text

/-- A fault and the position where it was found. -/
structure SyntaxError where
  fault : SyntaxFault
  position : Nat
deriving DecidableEq

/-- The wording of an error with its position. -/
def SyntaxError.message (error : SyntaxError) : String :=
  error.fault.message ++ " at position " ++ toString error.position

end IncentivePay.Formula
