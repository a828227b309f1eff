import SyntaxGraph.Kind.Basic
import SyntaxGraph.Text.Quoted
import SyntaxGraph.Decimal.Binary64

/-!
# Describing a kind

A description is the words for the kind followed, in parentheses, by its
payload. Identifiers stand as they are; the text of a string literal is quoted.
-/

namespace SyntaxGraph

/-- The payload of a type. -/
def TypeShape.details : TypeShape String → List String
  | integer _ width => [toString width.toNat]
  | name id => [id]
  | _ => []

/-- The payload of a literal. -/
def Literal.details : Literal String → List String
  | null | tuple => []
  | bool value => [if value then "true" else "false"]
  | string text => [Text.quote text]
  | signed value width => [toString value.toInt, toString width.toNat]
  | unsigned value width => [toString value.toNat, toString width.toNat]
  | real bits => [Decimal.Binary64.text bits]

/-- The payload of an expression. -/
def Expression.details : Expression String → List String
  | name id => [id]
  | keyword word => [word.spelling]
  | _ => []

/-- The payload of a declaration. -/
def Declaration.details : Declaration String → List String
  | parameter id mode => [id, mode.label]
  | globalVariable id linkage => [id, linkage.label]
  | what => what.id?.toList

namespace Kind

/-- The payload of a kind, item by item. -/
def details : Kind String → List String
  | type shape => shape.details
  | qualifiedType qualifiers => qualifiers.labels
  | literal value => value.details
  | expression shape => shape.details
  | statement _ => []
  | declaration what => what.details

/-- The description of a kind whose names are spelled out. -/
def describe (k : Kind String) : String :=
  match k.details with
  | [] => k.variant
  | items => k.variant ++ "(" ++ ", ".intercalate items ++ ")"

end Kind

end SyntaxGraph
