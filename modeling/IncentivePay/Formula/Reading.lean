import IncentivePay.Formula.Lexeme

/-!
# Readings of a text

`Reads position characters tokens` says that the characters, the first of
which stands at a position, are blank characters and lexemes from the left to
the right, and that the tokens are those lexemes in their order.  A lexeme is
a number, an identifier or a mark; it is taken as long as possible, and a
number and the two equality signs are not followed by everything.

Nothing here scans: what a lexeme is, what it denotes and what may follow it
are said apart from each other.
-/

namespace IncentivePay.Formula

/-- One or more digits. -/
def AreDigits (characters : List Char) : Prop :=
  characters ≠ [] ∧ ∀ character ∈ characters, isDigit character = true

/-- A text of digits with or without a point, and the digits on either side. -/
inductive IsMantissa : List Char → List Char → List Char → Prop
  | whole {whole : List Char} :
      AreDigits whole →
      IsMantissa whole whole []
  | pointed {whole fraction : List Char} :
      AreDigits whole →
      (∀ character ∈ fraction, isDigit character = true) →
      IsMantissa (whole ++ '.' :: fraction) whole fraction
  | fraction {fraction : List Char} :
      AreDigits fraction →
      IsMantissa ('.' :: fraction) [] fraction

/-- A text of an exponent, which may be empty, and the exponent. -/
inductive IsExponent : List Char → Int → Prop
  | none :
      IsExponent [] 0
  | unsigned {letter : Char} {digits : List Char} :
      letter = 'e' ∨ letter = 'E' →
      AreDigits digits →
      IsExponent (letter :: digits) (Nat.ofDigitChars 10 digits 0)
  | plus {letter : Char} {digits : List Char} :
      letter = 'e' ∨ letter = 'E' →
      AreDigits digits →
      IsExponent (letter :: '+' :: digits) (Nat.ofDigitChars 10 digits 0)
  | minus {letter : Char} {digits : List Char} :
      letter = 'e' ∨ letter = 'E' →
      AreDigits digits →
      IsExponent (letter :: '-' :: digits) (-(Nat.ofDigitChars 10 digits 0 : Nat))

/-- A text is the text of a numeral. -/
def IsNumeral
    (characters : List Char)
    (numeral : Numeral) :
    Prop :=
  ∃ mantissa exponent,
    characters = mantissa ++ exponent ∧
      IsMantissa mantissa numeral.whole numeral.fraction ∧
      IsExponent exponent numeral.exponent

/-- A name without a point. -/
def IsName (characters : List Char) : Prop :=
  ∃ first others,
    characters = first :: others ∧
      isIdentifierStart first = true ∧
      ∀ character ∈ others, isIdentifierPart character = true

/-- One or more names with a point between two. -/
inductive IsIdentifier : List Char → Prop
  | name {name : List Char} :
      IsName name →
      IsIdentifier name
  | dotted {name others : List Char} :
      IsName name →
      IsIdentifier others →
      IsIdentifier (name ++ '.' :: others)

/-- The operators and the punctuation marks as they are written. -/
def marks : List (List Char × Token) :=
  Operator.all.map (fun mark => (mark.symbol.toList, .operator mark)) ++
    [(['?'], .question), ([':'], .colon), (['('], .leftParen),
     ([')'], .rightParen), ([','], .comma)]

/-- A text is a lexeme that denotes a token. -/
inductive IsLexeme : List Char → Token → Prop
  | number {characters : List Char} {numeral : Numeral} :
      IsNumeral characters numeral →
      (numeral.toBinary64 false).isFinite = true →
      IsLexeme characters (.number (numeral.toBinary64 false))
  | identifier {characters : List Char} :
      IsIdentifier characters →
      IsLexeme characters (.identifier (String.ofList characters))
  | mark {characters : List Char} {token : Token} :
      (characters, token) ∈ marks →
      IsLexeme characters token

/-- The characters may follow the lexeme of a token. -/
def MayFollow
    (token : Token)
    (characters : List Char) :
    Prop :=
  ∀ next ∈ characters.head?,
    match token with
    | .number _ => extendsNumber next = false
    | .operator .equal => next ≠ '='
    | .operator .notEqual => next ≠ '='
    | _ => True

/-- No lexeme at the start of the characters is longer. -/
def IsLongest
    (length : Nat)
    (characters : List Char) :
    Prop :=
  ∀ other token,
    other <+: characters → IsLexeme other token → other.length ≤ length

/-- The characters are blank characters and the lexemes of the tokens. -/
inductive Reads : Nat → List Char → List Located → Prop
  | finished {position : Nat} :
      Reads position [] []
  | blank
      {position : Nat} {character : Char}
      {rest : List Char} {tokens : List Located} :
      isBlank character = true →
      Reads (position + 1) rest tokens →
      Reads position (character :: rest) tokens
  | lexeme
      {position : Nat} {lexeme rest : List Char}
      {token : Token} {tokens : List Located} :
      IsLexeme lexeme token →
      IsLongest lexeme.length (lexeme ++ rest) →
      MayFollow token rest →
      Reads (position + lexeme.length) rest tokens →
      Reads position (lexeme ++ rest) (⟨token, position⟩ :: tokens)

end IncentivePay.Formula
