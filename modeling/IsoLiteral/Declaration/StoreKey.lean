import IsoLiteral.Declaration.Value

/-!
# Store keys

A selection's place in the store is named by its field and its arguments: `x(a: $v, b: 10)` has the
key `x____a___v_v____b___l_10`. Free text is escaped so that no underscore of its own is left, which
keeps the underscores that separate the parts unambiguous. A selection without arguments has the bare
field name for its key.
-/

namespace IsoLiteral

/-- Whether a byte is an ASCII letter or digit, which stands for itself in an alias. -/
def isAliasByte (byte : UInt8) : Bool :=
  (48 ≤ byte && byte ≤ 57) || (65 ≤ byte && byte ≤ 90) || (97 ≤ byte && byte ≤ 122)

/-- A byte in an alias: itself, or its code in hexadecimal between `_x` and `_`. -/
def escapedByte (byte : UInt8) : List Char :=
  if isAliasByte byte then [Char.ofNat byte.toNat]
  else ['_', 'x', Value.hexDigit (byte.toNat / 16), Value.hexDigit (byte.toNat % 16), '_']

/-- A text with every UTF-8 byte escaped that is not an ASCII letter or digit. -/
def escapeAliasText (text : String) : String :=
  String.ofList (text.toByteArray.toList.flatMap escapedByte)

namespace Value

mutual
/-- The chunk of an alias that identifies the value. It starts with a letter for its sort. -/
def aliasChunk : Value → String
  | .variable name => "v_" ++ escapeAliasText name
  | .int i => "l_" ++ escapeAliasText (toString i)
  | .float text => "l_" ++ escapeAliasText text
  | .string s => "s_" ++ escapeAliasText s
  | .boolean b => if b then "l_true" else "l_false"
  | .null => "l_null"
  | .enum name => "e_" ++ escapeAliasText name
  | .list items => "a_" ++ Text.joinWith "_" (aliasChunks items) ++ "_a"
  | .object fields => "o_" ++ Text.joinWith "_" (aliasFieldChunks fields) ++ "_c"
termination_by structural v => v
/-- The chunks of the items. -/
def aliasChunks : List Value → List String
  | [] => []
  | v :: rest => v.aliasChunk :: aliasChunks rest
termination_by structural vs => vs
/-- The chunks of the fields, each with its key. -/
def aliasFieldChunks : List (String × Value) → List String
  | [] => []
  | (key, v) :: rest => (escapeAliasText key ++ "__" ++ v.aliasChunk) :: aliasFieldChunks rest
termination_by structural fs => fs
end

end Value

/-- The part of a store key that stands for one argument. -/
def argumentChunk (argument : String × Value) : String :=
  "____" ++ escapeAliasText argument.1 ++ "___" ++ argument.2.aliasChunk

/-- The key under which a selection of a field with some arguments is stored. -/
def storeKey (field : String) (arguments : List (String × Value)) : String :=
  if arguments.isEmpty then field
  else escapeAliasText field ++ Text.concat (arguments.map argumentChunk)

end IsoLiteral
