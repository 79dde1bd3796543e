import IncentivePay.Decimal.Numeral
import IncentivePay.Formula.Token
import IncentivePay.Text.Blank

/-!
# From characters to tokens

Blank characters separate tokens and are otherwise skipped.  A token is the
longest lexeme that starts at a character: a number, a dotted identifier, or
an operator or punctuation mark of one or two characters.

A number is followed neither by a character of an identifier nor by a point,
so that a malformed number is refused as a whole, and its value is finite.
After `==` and `!=` no further `=` may stand.
-/

namespace IncentivePay.Formula

/-- A character with which an identifier starts. -/
def isIdentifierStart (character : Char) : Bool :=
  character.isAlpha || character = '_' || character = '$'

/-- A character inside an identifier, other than the point between two parts. -/
def isIdentifierPart (character : Char) : Bool :=
  character.isAlphanum || character = '_' || character = '$'

/-- The characters of an identifier after its first one. -/
def identifierTail : List Char → List Char
  | [] => []
  | character :: rest =>
      if isIdentifierPart character then
        character :: identifierTail rest
      else if character = '.' && rest.head?.any isIdentifierStart then
        character :: identifierTail rest
      else
        []

/-- A number starts with a digit, or with a point and a digit. -/
def startsNumber
    (character : Char)
    (rest : List Char) :
    Bool :=
  isDigit character || (character = '.' && rest.head?.any isDigit)

/-- A character that may not follow a number. -/
def extendsNumber (character : Char) : Bool :=
  isIdentifierPart character || character = '.'

/-- The number at the start of the characters, with its width. -/
def numberToken
    (position : Nat)
    (characters : List Char) :
    Except SyntaxError (Token × Nat) :=
  let (numeral, rest) := Numeral.split characters
  let width := characters.length - rest.length
  let excess := rest.takeWhile extendsNumber
  let value := numeral.toBinary64 false
  if excess.isEmpty && value.isFinite then
    .ok (.number value, width)
  else
    .error
      ⟨.invalidNumber (String.ofList (characters.take width ++ excess)),
        position⟩

/-- The mark that a character and its successor form, with its width. -/
def mark?
    (character : Char)
    (next : Option Char) :
    Option (Token × Nat) :=
  match character, next with
  | '>', some '=' => some (.operator .greaterOrEqual, 2)
  | '<', some '=' => some (.operator .lessOrEqual, 2)
  | '=', some '=' => some (.operator .equal, 2)
  | '!', some '=' => some (.operator .notEqual, 2)
  | '>', _ => some (.operator .greater, 1)
  | '<', _ => some (.operator .less, 1)
  | '+', _ => some (.operator .add, 1)
  | '-', _ => some (.operator .subtract, 1)
  | '*', _ => some (.operator .multiply, 1)
  | '/', _ => some (.operator .divide, 1)
  | '%', _ => some (.operator .remainder, 1)
  | '?', _ => some (.question, 1)
  | ':', _ => some (.colon, 1)
  | '(', _ => some (.leftParen, 1)
  | ')', _ => some (.rightParen, 1)
  | ',', _ => some (.comma, 1)
  | _, _ => none

/-- A quote would open a string literal, which formulas do not have. -/
def isQuote (character : Char) : Bool :=
  character = '\x22' || character = '\x27' || character = '\x60'

/-- The equality signs, after which no further `=` may stand. -/
def Token.isEqualitySign (token : Token) : Bool :=
  token = .operator .equal || token = .operator .notEqual

/-- The operator or punctuation mark at the start of the characters. -/
def markToken
    (position : Nat)
    (character : Char)
    (rest : List Char) :
    Except SyntaxError (Token × Nat) :=
  match mark? character rest.head? with
  | some (token, width) =>
      if token.isEqualitySign && rest.tail.head? = some '=' then
        .error ⟨.unexpectedCharacter '=', position + 2⟩
      else
        .ok (token, width)
  | none =>
      if isQuote character then
        .error ⟨.stringLiteral, position⟩
      else
        .error ⟨.unexpectedCharacter character, position⟩

/-- The token at the start of the characters, with its width. -/
def firstToken
    (position : Nat)
    (character : Char)
    (rest : List Char) :
    Except SyntaxError (Token × Nat) :=
  if startsNumber character rest then
    numberToken position (character :: rest)
  else if isIdentifierStart character then
    let tail := identifierTail rest
    .ok (.identifier (String.ofList (character :: tail)), tail.length + 1)
  else
    markToken position character rest

/-- The tokens of the characters, the first of which stands at a position. -/
def scanFrom
    (position : Nat) :
    List Char →
    Except SyntaxError (List Located)
  | [] => .ok []
  | character :: rest =>
      if isBlank character then
        scanFrom (position + 1) rest
      else
        match firstToken position character rest with
        | .error error => .error error
        | .ok (token, width) =>
            match scanFrom (position + width) (rest.drop (width - 1)) with
            | .error error => .error error
            | .ok tokens => .ok (⟨token, position⟩ :: tokens)
termination_by characters => characters.length
decreasing_by
  · simp
  · simp only [List.length_drop, List.length_cons]; omega

/-- The tokens of a text. -/
def tokenize (text : String) : Except SyntaxError (List Located) :=
  scanFrom 0 text.toList

end IncentivePay.Formula
