import IsoLiteral.Diagnostic.Basic
import IsoLiteral.Syntax.Token.Lexer
import IsoLiteral.Syntax.TokenSet
import IsoLiteral.Syntax.Tree

/-!
# The parser's cursor

The grammar runs over the tokens of one literal and builds its tree as it goes. Trivia are held back
until the next node starts or the next token is taken, so that no node but the outermost ends in
white space. Productions never fail: they report a diagnostic, at most one for each position, and go
on. Only a limit stops them, and then the tree is given up.

Looking ahead without taking a token is counted, and so is every bound that a loop or a nesting is
given. Running out of either would be a fault of the grammar itself and is recorded as such.
-/

namespace IsoLiteral

/-- Limits for one literal: how many tokens may be taken and how deeply constructs may nest. -/
structure ParseLimits where
  fuel : Option Nat
  maxDepth : Option Nat
deriving DecidableEq, Repr, Inhabited

/-- No limits. -/
def ParseLimits.unlimited : ParseLimits := ⟨none, none⟩

/-- The limit that a literal exceeded. -/
inductive LimitError where
  | fuelExhausted
  | recursionLimitExceeded
deriving DecidableEq, Repr

/-- What an exceeded limit is reported as. -/
def LimitError.message : LimitError → String
  | fuelExhausted => "execution limit exceeded"
  | recursionLimitExceeded => "recursion limit exceeded"

/-- Ways in which the grammar itself could go wrong. -/
inductive GrammarFault where
  /-- Too many looks ahead without taking a token. -/
  | stalled
  /-- A production was entered at a token that does not start it. -/
  | misplaced (expected : SyntaxKind)
  /-- A node was finished that had not been started, or started at a place that is not open. -/
  | unopened
  /-- A loop or a nesting outlasted the bound that the number of tokens gives it. -/
  | overrun
deriving DecidableEq, Repr

namespace Parser

/-- How many looks ahead are allowed without taking a token or changing the depth. -/
def patienceLimit : Nat := 256

/-- Everything the parser knows while it works on one literal. -/
structure State where
  /-- Index of the literal. -/
  source : Nat
  /-- Length of the literal in bytes. -/
  length : Nat
  /-- Tokens not yet reached. -/
  rest : List Token
  /-- Trivia passed over but not yet put into the tree. -/
  pending : List Token
  /-- Children of the innermost open node. -/
  built : List Tree
  /-- The open nodes, innermost first, each with the children that stand before it in its parent. -/
  enclosing : List (SyntaxKind × List Tree)
  /-- Where the last taken token ends. -/
  lastStop : Nat
  diagnostics : Diagnostics
  /-- Start of the position that the last diagnostic was charged to. -/
  lastErrorAt : Option Nat
  /-- How many tokens may still be taken. -/
  fuel : Option Nat
  maxDepth : Option Nat
  depth : Nat
  /-- How many looks ahead are still allowed. -/
  patience : Nat
  /-- The first limit that was exceeded. -/
  exceeded : Option LimitError
  /-- The first fault of the grammar. -/
  fault : Option GrammarFault
deriving Repr

/-- The state before the first token. -/
def State.initial (text : String) (source : Nat) (limits : ParseLimits) : State where
  source := source
  length := text.utf8ByteSize
  rest := lex text
  pending := []
  built := []
  enclosing := []
  lastStop := 0
  diagnostics := []
  lastErrorAt := none
  fuel := limits.fuel
  maxDepth := limits.maxDepth
  depth := 0
  patience := patienceLimit
  exceeded := none
  fault := none

end Parser

/-- A step of the grammar. -/
abbrev Parser := StateM Parser.State

namespace Parser

/-! ## Failing -/

/-- Records an exceeded limit; the first one stays. -/
def exceed (limit : LimitError) : Parser Unit :=
  modify fun s => { s with exceeded := s.exceeded.or (some limit) }

/-- Records a fault of the grammar; the first one stays. -/
def blame (fault : GrammarFault) : Parser Unit :=
  modify fun s => { s with fault := s.fault.or (some fault) }

/-! ## Looking -/

/-- Passes over trivia up to the next token that matters. -/
def settle : Parser Unit :=
  modify fun s =>
    { s with
      pending := s.pending ++ s.rest.takeWhile Token.isTrivia
      rest := s.rest.dropWhile Token.isTrivia }

/-- Counts one look ahead. -/
def lookAhead : Parser Unit := do
  let s ← get
  if s.patience = 0 then blame .stalled else set { s with patience := s.patience - 1 }

/-- The kind of the current token; at the end of the literal it is `error`. -/
def current : Parser SyntaxKind := do
  settle
  lookAhead
  let s ← get
  return (s.rest.head?.map Token.kind).getD .error

/-- The bytes of the current token, or no bytes at the end of the literal. -/
def currentRange : Parser TextRange := do
  settle
  let s ← get
  return (s.rest.head?.map Token.range).getD (TextRange.empty s.length)

/-- The text of the current token, empty at the end of the literal. -/
def currentText : Parser String := do
  settle
  let s ← get
  return (s.rest.head?.map Token.text).getD ""

/-- Whether the current token has a kind. -/
def currentlyIs (kind : SyntaxKind) : Parser Bool := do
  return (← current) = kind

/-- Whether the kind of the current token is in a set. -/
def currentlyIn (kinds : TokenSet) : Parser Bool := do
  return kinds.contains (← current)

/-- Whether the current token is the identifier `keyword`. -/
def atKeyword (keyword : String) : Parser Bool := do
  if ← currentlyIs .identifier then
    return (← currentText) = keyword
  else
    return false

/-- Whether the token after the current one has a kind; trivia between the two do not count. -/
def nextIs (kind : SyntaxKind) : Parser Bool := do
  settle
  lookAhead
  let s ← get
  return ((s.rest.filter (!·.isTrivia))[1]?.map Token.kind) = some kind

/-- Whether the literal is at its end, or a limit was exceeded. -/
def shouldStop : Parser Bool := do
  settle
  let s ← get
  return s.rest.isEmpty || s.exceeded.isSome

/-! ## Building -/

/-- Puts the trivia held back into the tree. -/
def flush : Parser Unit :=
  modify fun s => { s with built := s.built ++ s.pending.map Tree.token, pending := [] }

/-- Starts a node after the trivia held back. -/
def startNode (kind : SyntaxKind) : Parser Unit := do
  flush
  modify fun s => { s with built := [], enclosing := (kind, s.built) :: s.enclosing }

/-- Finishes the innermost open node. -/
def finishNode : Parser Unit := do
  match (← get).enclosing with
  | [] => blame .unopened
  | (kind, before) :: outer =>
    modify fun s => { s with built := before ++ [Tree.node kind s.built], enclosing := outer }

/-- A node that holds what `body` takes. -/
def node (kind : SyntaxKind) (body : Parser Unit) : Parser Unit := do
  startNode kind
  body
  finishNode

/-- A place among the children of the innermost open node: how many nodes are open there and how many
children stand before it. -/
structure Checkpoint where
  enclosing : Nat
  children : Nat

/-- The place after the trivia held back. -/
def checkpoint : Parser Checkpoint := do
  flush
  let s ← get
  return ⟨s.enclosing.length, s.built.length⟩

/-- Starts a node that takes in what was built since an earlier place. -/
def startNodeAt (place : Checkpoint) (kind : SyntaxKind) : Parser Unit := do
  let s ← get
  if s.enclosing.length = place.enclosing ∧ place.children ≤ s.built.length then
    modify fun s =>
      { s with
        built := s.built.drop place.children
        enclosing := (kind, s.built.take place.children) :: s.enclosing }
  else
    blame .unopened

/-- A node that holds what was built since an earlier place and what `body` takes. -/
def nodeAt (place : Checkpoint) (kind : SyntaxKind) (body : Parser Unit) : Parser Unit := do
  startNodeAt place kind
  body
  finishNode

/-- Pays for one token. -/
def spendFuel : Parser Unit := do
  let s ← get
  match s.fuel with
  | none => pure ()
  | some 0 => exceed .fuelExhausted
  | some (left + 1) => set { s with fuel := some left }

/-- Takes the current token into the tree as a token of the given kind. -/
def bumpAs (kind : SyntaxKind) : Parser Unit := do
  settle
  match (← get).rest with
  | [] => pure ()
  | token :: rest =>
    spendFuel
    flush
    modify fun s =>
      { s with
        rest := rest
        built := s.built ++ [Tree.token { token with kind := kind }]
        lastStop := token.stop
        patience := patienceLimit }

/-- Takes the current token into the tree. -/
def bump : Parser Unit := do bumpAs (← current)

/-- Takes the current token if it has the given kind, and says whether it did. -/
def eat (kind : SyntaxKind) : Parser Bool := do
  if ← currentlyIs kind then
    bump
    return true
  else
    return false

/-- Takes the identifier `keyword` as a token of the given kind, and says whether it did. -/
def eatKeyword (keyword : String) (kind : SyntaxKind) : Parser Bool := do
  if ← atKeyword keyword then
    bumpAs kind
    return true
  else
    return false

/-! ## Reporting -/

/-- Claims a position for a diagnostic. It fails when the last diagnostic was charged there too. -/
def claim (offset : Nat) : Parser Bool := do
  let s ← get
  if s.lastErrorAt = some offset then
    return false
  else
    set { s with lastErrorAt := some offset }
    return true

/-- Adds a diagnostic. -/
def report (d : Diagnostic) : Parser Unit :=
  modify fun s => { s with diagnostics := s.diagnostics ++ [d] }

/-- Reports a problem with the current token. -/
def errorHere (kind : DiagnosticKind) (detail : String) : Parser Unit := do
  let range ← currentRange
  if ← claim range.start then
    report ((Diagnostic.located (← get).source kind range).withDetail detail)

/-- How a message names the token that was found. -/
def describeFound (text : String) : String :=
  if text = "" then "end of input" else "`" ++ text ++ "`"

/-- Reports that something else was expected here. -/
def errorExpected (kind : DiagnosticKind) (what : String) : Parser Unit := do
  let text ← currentText
  errorHere kind ("expected " ++ what ++ ", found " ++ describeFound text)

/-- Reports that the current token cannot be part of a list of `what`, and takes it into an error
node. -/
def skipUnexpected (what : String) : Parser Unit := do
  let text ← currentText
  errorHere .unexpectedToken ("expected " ++ what ++ ", found `" ++ text ++ "`")
  if !(← shouldStop) then
    node .error bump

/-- Takes a token of the given kind or reports it missing, and says which. -/
def expect (kind : SyntaxKind) (what : String) : Parser Bool := do
  if ← eat kind then
    return true
  else
    errorExpected .unexpectedToken what
    return false

/-- Takes an identifier or reports it missing, and says which. -/
def expectName (what : String) : Parser Bool := do
  if ← eat .identifier then
    return true
  else
    errorExpected .expectedName what
    return false

/-- Records a fault when the current token does not have the kind that the caller promised. -/
def assertCurrent (kind : SyntaxKind) : Parser Unit := do
  if !(← currentlyIs kind) then
    blame (.misplaced kind)

/-! ## Loops and nesting -/

/-- Repeats a step for as long as it asks to go on, at most `bound` times. -/
def repeatStep : Nat → Parser Bool → Parser Unit
  | 0, _ => blame .overrun
  | bound + 1, step => do
    if ← step then
      repeatStep bound step

/-- Repeats a step for as long as it asks to go on. Each time but the last it takes a token, so the
number of tokens left bounds the repetition. -/
def loop (step : Parser Bool) : Parser Unit := do
  repeatStep ((← get).rest.length + 1) step

/-- One round of taking tokens until the current one is in `stops` or there is nothing to take. -/
def skipStep (stops : TokenSet) : Parser Bool := do
  if ← shouldStop then
    return false
  else if ← currentlyIn stops then
    return false
  else
    bump
    return true

/-- Reports a problem and takes tokens into an error node until the current one is in `stops`. -/
def recover (kind : DiagnosticKind) (what : String) (stops : TokenSet) : Parser Unit := do
  let reached ← currentlyIn stops
  let stop ← shouldStop
  if reached || stop then
    errorExpected kind what
  else
    node .error do
      errorExpected kind what
      loop (skipStep stops)

/-- Goes one level deeper and says whether the limit allows it. -/
def enter : Parser Bool := do
  let s ← get
  if s.maxDepth.any (· ≤ s.depth) then
    exceed .recursionLimitExceeded
    return false
  else
    set { s with depth := s.depth + 1, patience := patienceLimit }
    return true

/-- Goes one level up again. -/
def leave : Parser Unit :=
  modify fun s => { s with depth := s.depth - 1, patience := patienceLimit }

/-- Runs `body` one level deeper, or not at all when the limit forbids it. -/
def nested (body : Parser Unit) : Parser Unit := do
  if ← enter then
    body
    leave

/-- Takes the closing token of a construct whose opening token is at `opener`. A missing one is
reported from the opening token through the last token taken. -/
def closeDelimiter (opener : TextRange) (close : SyntaxKind) (kind : DiagnosticKind)
    (construct : String) : Parser Unit := do
  if !(← eat close) then
    let here ← currentRange
    if ← claim here.start then
      let s ← get
      let range : TextRange := ⟨opener.start, max s.lastStop opener.stop⟩
      report ((Diagnostic.located s.source kind range).relatedTo
        (construct ++ " started here") opener)

/-- A node that starts with the current token, holds what the rounds of `step` take, and ends with
the token that closes it. -/
def delimited (nodeKind : SyntaxKind) (close : SyntaxKind) (kind : DiagnosticKind)
    (construct : String) (body : Parser Unit) : Parser Unit :=
  node nodeKind do
    let opener ← currentRange
    bump
    body
    closeDelimiter opener close kind construct

end Parser

end IsoLiteral
