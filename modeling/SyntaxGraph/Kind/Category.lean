/-!
# Categories

The six sorts of node. A slot of a node says which category its child must have.
-/

namespace SyntaxGraph

/-- What sort of thing a node is. -/
inductive Category where
  | type
  | qualifiedType
  | literal
  | expression
  | statement
  | declaration
  deriving DecidableEq, Repr

namespace Category

/-- The word for a category in descriptions and errors. -/
def label : Category → String
  | type => "type"
  | qualifiedType => "qualified-type"
  | literal => "ctor"
  | expression => "expression"
  | statement => "statement"
  | declaration => "declaration"

/-- Every category. -/
def all : List Category :=
  [type, qualifiedType, literal, expression, statement, declaration]

/-- The category with a given label. -/
def ofLabel? (s : String) : Option Category := all.find? fun c => c.label == s

end Category

end SyntaxGraph
