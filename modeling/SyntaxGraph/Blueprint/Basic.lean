import SyntaxGraph.Build
import SyntaxGraph.Typing

/-!
# Blueprints

A blueprint says what node is to be made and which nodes are to be made for it:
the qualified type of a literal, the result type of a logical operator, the
default value of an integer type. Making it interns its name first, then makes
what it synthesizes, and last the node itself. If that is refused, the name and
what was synthesized stay.
-/

namespace SyntaxGraph

/-- A type that is made along with the qualified type around it. -/
inductive FreshType where
  | leaf (shape : TypeShape Empty)
  | integer (sign : Signedness) (width : UInt16)
  deriving DecidableEq, Repr

/-- What node is to be made. -/
inductive Blueprint where
  /-- A node with the given children. -/
  | node (kind : Kind Label) (children : List Edge)
  /-- An integer type, which owns its default value. -/
  | integer (sign : Signedness) (width : UInt16)
  /-- A qualified type that owns the type it wraps. -/
  | qualified (qualifiers : Qualifiers) (wrapped : FreshType)
  /-- A node that owns its qualified type, in the first slot, besides the given children. -/
  | typed (kind : Kind Label) (qualifiers : Qualifiers) (wrapped : FreshType)
      (children : List Edge)
  /-- A reference of a record to itself. -/
  | selfReference (record : NodeId)
  deriving DecidableEq, Repr

/-- The node is a declaration that has a type; the answer is its type. -/
def Graph.checkDeclaration (g : Graph) (id : NodeId) : Except NodeError NodeId := do
  let node ← g.known id
  let kind : Kind Name := .expression .declarationRef
  let refusal := NodeError.childCategory kind.variant 1 .declaration node.category
  match node.kind with
  | .declaration _ =>
    match ← reading (g.typeOf id) with
    | some type => return type
    | none => .error refusal
  | _ => .error refusal

namespace Build

/-- Makes an integer type with its default value, the constant zero of that very type. The type is
begun before the value, which refers to it, and is finished once it owns the value. -/
def integerType (sign : Signedness) (width : UInt16) (span : Span) : Build NodeId := do
  if !isIntegerWidth width then throw (.node (.invalidIntegerWidth width))
  let type ← begin (.type (.integer sign width)) span
  let constant ← create (.qualifiedType .onlyConst) [.ref type] span
  let zero ← create (.literal (.zero sign width)) [.owned constant] span
  pushChild type (.owned zero)
  freeze type
  return type

/-- Makes a type that has no name in it. -/
def freshType (wrapped : FreshType) (span : Span) : Build NodeId :=
  match wrapped with
  | .leaf shape => create (.type (shape.map nofun)) [] span
  | .integer sign width => integerType sign width span

/-- Makes a type and the qualified type that owns it. -/
def qualifiedType (qualifiers : Qualifiers) (wrapped : FreshType) (span : Span) :
    Build NodeId := do
  let type ← freshType wrapped span
  create (.qualifiedType qualifiers) [.owned type] span

/-- A reference to a declaration, of the type that the declaration has. -/
def declarationRef (declaration : NodeId) (span : Span) : Build NodeId := do
  let type ← check (·.checkDeclaration declaration)
  create (.expression .declarationRef) [.ref type, .ref declaration] span

end Build

/-- Makes what a blueprint says, all at one place of the source. -/
def Blueprint.build (plan : Blueprint) (span : Span) : Build NodeId :=
  match plan with
  | .node kind children => do
    let kind ← Build.resolveKind kind
    Build.create kind children span
  | .integer sign width => Build.integerType sign width span
  | .qualified qualifiers wrapped => Build.qualifiedType qualifiers wrapped span
  | .typed kind qualifiers wrapped children => do
    let kind ← Build.resolveKind kind
    let type ← Build.qualifiedType qualifiers wrapped span
    Build.create kind (.owned type :: children) span
  | .selfReference record => do
    let type ← Build.create (.qualifiedType .none) [.ref record] span
    Build.create (.expression (.keyword .self)) [.owned type] span

end SyntaxGraph
