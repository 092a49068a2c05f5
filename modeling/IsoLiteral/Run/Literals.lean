/-!
# Registered literals

The literals of a run are registered in order and known by their index from then on. A literal may
come from a file or stand alone.
-/

namespace IsoLiteral

/-- Where a literal comes from. -/
inductive LiteralOrigin where
  | inline
  | file (path : String)
deriving DecidableEq, Repr

/-- The name under which a literal is shown. -/
def LiteralOrigin.displayName : LiteralOrigin → String
  | inline => "<iso>"
  | file path => path

/-- The path of a literal that comes from a file. -/
def LiteralOrigin.path? : LiteralOrigin → Option String
  | inline => none
  | file path => some path

/-- A literal and where it comes from. -/
structure Literal where
  origin : LiteralOrigin
  content : String
deriving DecidableEq, Repr

/-- The literals of a run. -/
structure LiteralMap where
  entries : List Literal
deriving Repr

namespace LiteralMap

/-- The map without literals. -/
def empty : LiteralMap := ⟨[]⟩

/-- Registers a literal and gives its index. -/
def add (m : LiteralMap) (literal : Literal) : Nat × LiteralMap :=
  (m.entries.length, ⟨m.entries ++ [literal]⟩)

/-- Registers a literal that stands alone. -/
def addInline (m : LiteralMap) (content : String) : Nat × LiteralMap := m.add ⟨.inline, content⟩

/-- Registers a literal from a file. -/
def addFile (m : LiteralMap) (path content : String) : Nat × LiteralMap :=
  m.add ⟨.file path, content⟩

/-- The map of the given literals in order. -/
def ofLiterals (literals : List String) : LiteralMap := ⟨literals.map (⟨.inline, ·⟩)⟩

/-- The literal with an index. -/
def get? (m : LiteralMap) (id : Nat) : Option Literal := m.entries[id]?

/-- How many literals there are. -/
def size (m : LiteralMap) : Nat := m.entries.length

/-- Whether there is no literal. -/
def isEmpty (m : LiteralMap) : Bool := m.entries.isEmpty

end LiteralMap

end IsoLiteral
