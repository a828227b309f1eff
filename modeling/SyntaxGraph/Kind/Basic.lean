import SyntaxGraph.Kind.Category
import SyntaxGraph.Kind.Terms
import SyntaxGraph.Kind.Declarations

/-!
# Kinds of nodes

A kind is a category together with what a node of that category holds besides
its children. Children are never part of a kind: they are edges of the graph.

Two kinds of node keep a tree from being finished. A *placeholder* stands for
something still to be found: a named or unknown type, a name used as an
expression, a type that is to be inferred. A *self reference* names the record
that encloses it.
-/

namespace SyntaxGraph

/-- A node without its children; `ν` stands for names. -/
inductive Kind (ν : Type) where
  | type (shape : TypeShape ν)
  | qualifiedType (qualifiers : Qualifiers)
  | literal (value : Literal ν)
  | expression (shape : Expression ν)
  | statement (shape : Statement)
  | declaration (what : Declaration ν)
  deriving DecidableEq, Repr

namespace Kind

variable {ν μ : Type}

/-- The kind with its name, if it has one, changed by `f`. -/
def map (f : ν → μ) : Kind ν → Kind μ
  | type shape => type (shape.map f)
  | qualifiedType qualifiers => qualifiedType qualifiers
  | literal value => literal (value.map f)
  | expression shape => expression (shape.map f)
  | statement shape => statement shape
  | declaration what => declaration (what.map f)

/-- The one name in a kind, if it has one. -/
def name? : Kind ν → Option ν
  | type (.name id) => some id
  | literal (.string text) => some text
  | expression (.name id) => some id
  | declaration what => what.id?
  | _ => none

/-- The category of a kind. -/
def category : Kind ν → Category
  | type _ => .type
  | qualifiedType _ => .qualifiedType
  | literal _ => .literal
  | expression _ => .expression
  | statement _ => .statement
  | declaration _ => .declaration

/-- The words for a category and a shape. -/
def variantOf (category : Category) (shape : String) : String := category.label ++ "::" ++ shape

/-- The words for a kind, whatever its payload. -/
def variant : Kind ν → String
  | type shape => variantOf .type shape.label
  | qualifiedType _ => Category.qualifiedType.label
  | literal value => variantOf .literal value.label
  | expression shape => variantOf .expression shape.label
  | statement shape => variantOf .statement shape.label
  | declaration what => variantOf .declaration what.label

/-- A node of the kind has a value, and so a type. -/
def producesValue : Kind ν → Bool
  | literal _ | expression _ | declaration _ => true
  | _ => false

/-- A node of the kind stands for something that is still to be found. -/
def isPlaceholder : Kind ν → Bool
  | type shape => shape.isPlaceholder
  | qualifiedType qualifiers => qualifiers.inferred
  | expression (.name _) => true
  | _ => false

/-- A node of the kind names the record that encloses it. -/
def isSelfReference : Kind ν → Bool
  | expression (.keyword .self) => true
  | _ => false

/-- The shape of a type. -/
def type? : Kind ν → Option (TypeShape ν)
  | type shape => some shape
  | _ => none

/-- The qualifiers of a qualified type. -/
def qualifiers? : Kind ν → Option Qualifiers
  | qualifiedType qualifiers => some qualifiers
  | _ => none

end Kind

end SyntaxGraph
