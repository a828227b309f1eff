import SyntaxGraph.Kind.Basic

/-!
# Layouts

Every kind of node says how many children it takes and of which category each of
them is: a list of fixed slots and a tail, which is empty, or one slot that may
be left out, or any number of slots.
-/

namespace SyntaxGraph

/-- What may follow the fixed slots. -/
inductive Tail where
  | none
  | optional (category : Category)
  | many (category : Category)
  deriving DecidableEq, Repr

/-- The slots for the children of a node. -/
structure Layout where
  fixed : List Category
  tail : Tail
  deriving DecidableEq, Repr

namespace Layout

/-- The category that the child at a position must have, if there is room for a child. -/
def slot (l : Layout) (index : Nat) : Option Category :=
  match l.fixed[index]? with
  | some category => some category
  | none =>
    match l.tail with
    | .none => none
    | .optional category => if index = l.fixed.length then some category else none
    | .many category => some category

/-- A finished node may have this many children. -/
def acceptsLength (l : Layout) (count : Nat) : Bool :=
  match l.tail with
  | .none => count = l.fixed.length
  | .optional _ => count = l.fixed.length || count = l.fixed.length + 1
  | .many _ => l.fixed.length ≤ count

/-- How many children a finished node may have, in words. -/
def arity (l : Layout) : String :=
  let count := l.fixed.length
  match l.tail with
  | .none => "exactly " ++ toString count
  | .optional _ => toString count ++ " or " ++ toString (count + 1)
  | .many _ => "at least " ++ toString count

/-- A layout with fixed slots only. -/
def exactly (fixed : List Category) : Layout := ⟨fixed, .none⟩

end Layout

variable {ν : Type}

/-- An integer type owns its default value; composite types own or refer to their parts. -/
def TypeShape.layout : TypeShape ν → Layout
  | integer _ _ => .exactly [.literal]
  | tuple | struct | operandList => ⟨[], .many .declaration⟩
  | function => .exactly [.qualifiedType, .type]
  | optional | vector => .exactly [.qualifiedType]
  | _ => .exactly []

/-- A literal has its own type; a tuple has elements besides. -/
def Literal.layout : Literal ν → Layout
  | tuple => ⟨[.qualifiedType], .many .expression⟩
  | _ => .exactly [.qualifiedType]

/-- An expression has a type of its own, unless it takes that of an operand. -/
def Expression.layout : Expression ν → Layout
  | literal => .exactly [.literal]
  | name _ | keyword _ | void => .exactly [.qualifiedType]
  | declarationRef => .exactly [.qualifiedType, .declaration]
  | grouping => .exactly [.expression]
  | assign => .exactly [.expression, .expression]
  | logicalAnd | logicalOr => .exactly [.qualifiedType, .expression, .expression]
  | logicalNot => .exactly [.qualifiedType, .expression]
  | ternary => .exactly [.expression, .expression, .expression]

/-- A statement has what it acts on. -/
def Statement.layout : Statement → Layout
  | breakLoop | continueLoop | yieldNow => .exactly []
  | expression | setLocation => .exactly [.expression]
  | declaration => .exactly [.declaration]
  | returnValue => ⟨[], .optional .expression⟩

/-- A declaration has a type, and most may have a value. -/
def Declaration.layout : Declaration ν → Layout
  | field _ | parameter _ _ | localVariable _ | globalVariable _ _ =>
    ⟨[.qualifiedType], .optional .expression⟩
  | constant _ => .exactly [.qualifiedType, .expression]
  | type _ | tupleElement _ => .exactly [.qualifiedType]

/-- The slots for the children of a node of a kind. -/
def Kind.layout : Kind ν → Layout
  | type shape => shape.layout
  | qualifiedType _ => .exactly [.type]
  | literal value => value.layout
  | expression shape => shape.layout
  | statement shape => shape.layout
  | declaration what => what.layout

end SyntaxGraph
