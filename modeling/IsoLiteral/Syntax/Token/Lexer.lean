import IsoLiteral.Syntax.Token

/-!
# Splitting a literal into tokens

Each lexical rule is tried at the head of the remaining text and the longest match wins. A rule
reports how many characters it takes after the first, so that every piece holds at least one
character and the pieces concatenate to the text. Where no rule matches, what a rule could have
started with (an unterminated string, up to the end of its line) or a single character is
unrecognised, and adjacent unrecognised pieces become one `garbage` token.
-/

namespace IsoLiteral.Lexer

/-- What the longest match at the head of a text is, and how many characters it takes after the
first. No kind means that nothing was recognised. -/
structure Match where
  kind : Option SyntaxKind
  extra : Nat
deriving DecidableEq, Repr

/-- Characters that may start an identifier: ASCII letters and the underscore. -/
def startsIdentifier (c : Char) : Bool := c.isAlpha || c = '_'

/-- Characters that may continue an identifier: those that start one, and ASCII digits. -/
def continuesIdentifier (c : Char) : Bool := startsIdentifier c || c.isDigit

/-- How many of the first characters satisfy a predicate. -/
def runLength (p : Char → Bool) (text : List Char) : Nat := (text.takeWhile p).length

/-- The punctuation kinds. -/
def punctuation? (c : Char) : Option SyntaxKind :=
  match c with
  | '(' => some .parenOpen
  | ')' => some .parenClose
  | '[' => some .bracketOpen
  | ']' => some .bracketClose
  | '{' => some .braceOpen
  | '}' => some .braceClose
  | ':' => some .colon
  | ',' => some .comma
  | '.' => some .dot
  | '@' => some .atSign
  | '$' => some .dollar
  | '=' => some .equals
  | '!' => some .bang
  | _ => none

/-- Length of the rest of a string after its opening quote, and whether a quote closes it. A string
ends before a line end and before an escape that would reach over one. -/
def stringLength : List Char → Nat × Bool
  | [] => (0, false)
  | '"' :: _ => (1, true)
  | '\n' :: _ => (0, false)
  | ['\\'] => (1, false)
  | '\\' :: c :: rest =>
    if c = '\n' then (1, false)
    else
      let (length, closed) := stringLength rest
      (length + 2, closed)
  | _ :: rest =>
    let (length, closed) := stringLength rest
    (length + 1, closed)

/-- Length of the rest of a block string after its three opening quotes, through the first three
quotes in a row; none when they never come. `quotes` counts the quotes just before. -/
def blockLength? (quotes : Nat) : List Char → Option Nat
  | [] => none
  | c :: rest =>
    if c = '"' then
      if quotes = 2 then some 1 else (blockLength? (quotes + 1) rest).map (· + 1)
    else (blockLength? 0 rest).map (· + 1)

/-- The match at an opening quote. Two quotes are an empty string unless they begin a block string
that closes. -/
def quoteMatch (rest : List Char) : Match :=
  match rest with
  | '"' :: '"' :: body =>
    match blockLength? 0 body with
    | some length => ⟨some .blockStringValue, length + 2⟩
    | none => ⟨some .stringValue, 1⟩
  | _ =>
    match stringLength rest with
    | (length, true) => ⟨some .stringValue, length⟩
    | (length, false) => ⟨none, length⟩

/-- Length of a fraction: a dot and at least one digit; zero when there is none. -/
def fractionLength : List Char → Nat
  | '.' :: rest => if runLength Char.isDigit rest = 0 then 0 else runLength Char.isDigit rest + 1
  | _ => 0

/-- Length of an exponent: the letter, an optional sign and at least one digit; zero when there is
none. -/
def exponentLength : List Char → Nat
  | c :: rest =>
    if c = 'e' || c = 'E' then
      match rest with
      | '+' :: digits | '-' :: digits =>
        if runLength Char.isDigit digits = 0 then 0 else runLength Char.isDigit digits + 2
      | digits => if runLength Char.isDigit digits = 0 then 0 else runLength Char.isDigit digits + 1
    else 0
  | [] => 0

/-- Length of an unsigned integer: a zero on its own, or digits that start with another one; zero
when no digit comes first. -/
def integerLength : List Char → Nat
  | '0' :: _ => 1
  | text => runLength Char.isDigit text

/-- Length and kind of an unsigned number: an integer, with a fraction or an exponent a float. The
length is zero when no number comes first. -/
def numberMatch (text : List Char) : Nat × SyntaxKind :=
  let whole := integerLength text
  let fraction := fractionLength (text.drop whole)
  let exponent := exponentLength (text.drop (whole + fraction))
  if whole = 0 || fraction + exponent = 0 then (whole, .intValue)
  else (whole + fraction + exponent, .floatValue)

/-- The longest match of a text that starts with `c` and goes on with `rest`. -/
def longestMatch (c : Char) (rest : List Char) : Match :=
  if c = '"' then quoteMatch rest
  else if c = '#' then ⟨some .lineComment, runLength (· != '\n') rest⟩
  else if c = ' ' || c = '\t' then
    ⟨some .whitespace, runLength (fun d => d = ' ' || d = '\t') rest⟩
  else if c = '\n' then ⟨some .newline, 0⟩
  else if c = '\r' then
    match rest with
    | '\n' :: _ => ⟨some .newline, 1⟩
    | _ => ⟨none, 0⟩
  else if c = '-' then
    let (length, kind) := numberMatch rest
    if length = 0 then ⟨none, 0⟩ else ⟨some kind, length⟩
  else if c.isDigit then
    let (length, kind) := numberMatch (c :: rest)
    ⟨some kind, length - 1⟩
  else if startsIdentifier c then ⟨some .identifier, runLength continuesIdentifier rest⟩
  else ⟨punctuation? c, 0⟩

/-- A piece of the text with its kind; unrecognised pieces are `garbage`. -/
structure Piece where
  kind : SyntaxKind
  chars : List Char
deriving DecidableEq, Repr

/-- The successive longest matches of a text, for at most `bound` of them. -/
def pieces (bound : Nat) : List Char → List Piece :=
  match bound with
  | 0 => fun _ => []
  | bound + 1 => fun
    | [] => []
    | c :: rest =>
      let m := longestMatch c rest
      ⟨m.kind.getD .garbage, c :: rest.take m.extra⟩ :: pieces bound (rest.drop m.extra)

/-- Puts a piece in front, joining it with a first piece when both are unrecognised. -/
def prepend (piece : Piece) : List Piece → List Piece
  | [] => [piece]
  | next :: rest =>
    if piece.kind = .garbage && next.kind = .garbage then
      ⟨.garbage, piece.chars ++ next.chars⟩ :: rest
    else piece :: next :: rest

/-- The pieces with adjacent unrecognised ones joined. -/
def coalesce (pieces : List Piece) : List Piece := pieces.foldr prepend []

/-- The pieces as tokens that start at `offset` and follow each other. -/
def place (offset : Nat) : List Piece → List Token
  | [] => []
  | piece :: rest =>
    let token : Token := ⟨piece.kind, String.ofList piece.chars, offset⟩
    token :: place token.stop rest

end IsoLiteral.Lexer

namespace IsoLiteral

/-- All tokens of a literal in order, trivia included. -/
def lex (text : String) : List Token :=
  let chars := text.toList
  Lexer.place 0 (Lexer.coalesce (Lexer.pieces chars.length chars))

end IsoLiteral
