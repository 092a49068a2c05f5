import IsoLiteral.Json.Decode
import IsoLiteral.Syntax.Parser

/-!
# Options of a run

The options are read from a document in which every key may be missing.
-/

namespace IsoLiteral

/-- The layout of query texts. -/
inductive QueryTextFormat where
  /-- One selection per line, indented by two spaces. -/
  | pretty
  /-- Everything on one line. -/
  | compact
deriving DecidableEq, Repr, Inhabited

/-- The formats by their names in a document. -/
def QueryTextFormat.names : List (String × QueryTextFormat) :=
  [("pretty", .pretty), ("compact", .compact)]

/-- The name of a format in a document. -/
def QueryTextFormat.text : QueryTextFormat → String
  | pretty => "pretty"
  | compact => "compact"

/-- The options of one run. -/
structure CompilerConfig where
  parseFuel : Nat
  parseMaxDepth : Nat
  queryTextFormat : QueryTextFormat
  /-- Whether every query text comes with its hash. -/
  persistedQueries : Bool
  generateRefetchField : Bool
deriving DecidableEq, Repr

namespace CompilerConfig

/-- The options that hold when nothing else is said. -/
def standard : CompilerConfig where
  parseFuel := 1000000
  parseMaxDepth := 512
  queryTextFormat := .pretty
  persistedQueries := false
  generateRefetchField := true

/-- The limits for parsing one literal. -/
def parseLimits (c : CompilerConfig) : ParseLimits := ⟨some c.parseFuel, some c.parseMaxDepth⟩

open Json Decoder

/-- Reads a document of options. -/
def decode : Decoder CompilerConfig := fun depth raw => do
  let keys :=
    ["parseFuel", "parseMaxDepth", "queryTextFormat", "persistedQueries", "generateRefetchField"]
  let [fuel, maxDepth, format, persisted, refetch] ← record keys depth raw | none
  return {
    parseFuel := ← orElse word32 standard.parseFuel (depth + 1) fuel
    parseMaxDepth := ← orElse word32 standard.parseMaxDepth (depth + 1) maxDepth
    queryTextFormat :=
      ← orElse (oneOf QueryTextFormat.names) standard.queryTextFormat (depth + 1) format
    persistedQueries := ← orElse bool standard.persistedQueries (depth + 1) persisted
    generateRefetchField := ← orElse bool standard.generateRefetchField (depth + 1) refetch }

/-- The options that a text holds. -/
def ofString? (text : String) : Option CompilerConfig := (Raw.ofString? text).bind (decode 0)

/-- Writes the options. -/
def toJson (c : CompilerConfig) : Json :=
  .object [("parseFuel", .int c.parseFuel), ("parseMaxDepth", .int c.parseMaxDepth),
    ("queryTextFormat", .string c.queryTextFormat.text),
    ("persistedQueries", .bool c.persistedQueries),
    ("generateRefetchField", .bool c.generateRefetchField)]

end CompilerConfig

end IsoLiteral
