import SyntaxGraph.Blueprint.Catalog
import SyntaxGraph.Command

/-!
# What the catalog takes in

An entry of the catalog is given nodes, and the node that it makes is to own some
of them: most entries take all that they are given, but a reference takes nothing.
The tables below say for each entry what it takes. They name entries and arguments
and do not look at how an entry is put together.

What is put together has edges, and what these own can be read off. One lemma for
each family says that this is what the table says.
-/

namespace SyntaxGraph

namespace Blueprint

/-- The nodes that the edges are to own, besides those that are made along the way. -/
def taken : Blueprint → List NodeId
  | node _ children => children.filterMap Edge.child?
  | integer _ _ => []
  | qualified _ _ => []
  | typed _ _ _ children => children.filterMap Edge.child?
  | selfReference _ => []

theorem child?_owning (ids : List NodeId) : (owning ids).filterMap Edge.child? = ids := by
  rw [owning, List.filterMap_map]
  exact List.filterMap_some

/-- The types, and what each of them takes. -/
inductive TypeEntry : Blueprint → List NodeId → Prop where
  | leaf (shape : TypeShape Label) : TypeEntry (leafType shape) []
  | bool : TypeEntry boolType []
  | string : TypeEntry stringType []
  | void : TypeEntry voidType []
  | unknown : TypeEntry unknownType []
  | name (id : String) : TypeEntry (nameType id) []
  | integer (sign : Signedness) (width : UInt16) : TypeEntry (.integer sign width) []
  | tuple (elements : List NodeId) : TypeEntry (tupleType elements) elements
  | struct (fields : List NodeId) : TypeEntry (structType fields) fields
  | operandList (operands : List NodeId) : TypeEntry (operandListType operands) operands
  | function (result operands : NodeId) :
    TypeEntry (functionType result operands) [result, operands]
  | optional (element : NodeId) : TypeEntry (optionalType element) [element]
  | vector (element : NodeId) : TypeEntry (vectorType element) [element]
  | qualified (type : NodeId) (isConst : Bool) : TypeEntry (qualifiedType type isConst) [type]
  /-- The type is not taken in but referred to. -/
  | qualifiedRef (type : NodeId) (isConst : Bool) : TypeEntry (qualifiedRef type isConst) []
  | inferred : TypeEntry inferredType []

/-- The literals, and what each of them takes. -/
inductive LiteralEntry : Blueprint → List NodeId → Prop where
  | null : LiteralEntry null []
  | bool (value : Bool) : LiteralEntry (bool value) []
  | string (text : String) : LiteralEntry (string text) []
  | signed (value : Int64) (width : UInt16) : LiteralEntry (signed value width) []
  | unsigned (value : UInt64) (width : UInt16) : LiteralEntry (unsigned value width) []
  | real (bits : UInt64) : LiteralEntry (real bits) []
  | tuple (type : NodeId) (elements : List NodeId) :
    LiteralEntry (tuple type elements) (type :: elements)

/-- The expressions, and what each of them takes. -/
inductive ExpressionEntry : Blueprint → List NodeId → Prop where
  | literal (value : NodeId) : ExpressionEntry (literal value) [value]
  | name (id : String) : ExpressionEntry (name id) []
  | keyword (word : Keyword) (type : NodeId) : ExpressionEntry (keyword word type) [type]
  /-- The record is not taken in but referred to. -/
  | selfReference (record : NodeId) : ExpressionEntry (.selfReference record) []
  | grouping (inner : NodeId) : ExpressionEntry (grouping inner) [inner]
  | assign (target source : NodeId) : ExpressionEntry (assign target source) [target, source]
  | logicalAnd (left right : NodeId) : ExpressionEntry (logicalAnd left right) [left, right]
  | logicalOr (left right : NodeId) : ExpressionEntry (logicalOr left right) [left, right]
  | logicalNot (operand : NodeId) : ExpressionEntry (logicalNot operand) [operand]
  | ternary (condition ifTrue ifFalse : NodeId) :
    ExpressionEntry (ternary condition ifTrue ifFalse) [condition, ifTrue, ifFalse]
  | void : ExpressionEntry void []

/-- The statements, and what each of them takes. -/
inductive StatementEntry : Blueprint → List NodeId → Prop where
  | breakLoop : StatementEntry breakLoop []
  | continueLoop : StatementEntry continueLoop []
  | yieldNow : StatementEntry yieldNow []
  | expression (value : NodeId) : StatementEntry (expressionStatement value) [value]
  | declaration (what : NodeId) : StatementEntry (declarationStatement what) [what]
  | setLocation (location : NodeId) : StatementEntry (setLocation location) [location]
  | returnValue (value : NodeId) : StatementEntry (returnValue (some value)) [value]
  | returnNothing : StatementEntry (returnValue none) []

/-- The declarations, and what each of them takes. -/
inductive DeclarationEntry : Blueprint → List NodeId → Prop where
  | field (id : String) (type : NodeId) (default? : Option NodeId) :
    DeclarationEntry (field id type default?) (type :: default?.toList)
  | parameter (id : String) (mode : PassingMode) (type : NodeId) (default? : Option NodeId) :
    DeclarationEntry (parameter id mode type default?) (type :: default?.toList)
  | localVariable (id : String) (type : NodeId) (initial : Option NodeId) :
    DeclarationEntry (localVariable id type initial) (type :: initial.toList)
  | globalVariable (id : String) (linkage : Linkage) (type : NodeId) (initial : Option NodeId) :
    DeclarationEntry (globalVariable id linkage type initial) (type :: initial.toList)
  | namedConstant (id : String) (type value : NodeId) :
    DeclarationEntry (namedConstant id type value) [type, value]
  | namedType (id : String) (type : NodeId) : DeclarationEntry (namedType id type) [type]
  | tupleElement (id : Option String) (type : NodeId) :
    DeclarationEntry (tupleElement id type) [type]

section Entries

variable {plan : Blueprint} {ids : List NodeId}

theorem TypeEntry.taken_eq (h : TypeEntry plan ids) : plan.taken = ids := by
  cases h with
  | tuple | struct | operandList => exact child?_owning ids
  | _ => rfl

theorem LiteralEntry.taken_eq (h : LiteralEntry plan ids) : plan.taken = ids := by
  cases h with
  | tuple type elements => exact child?_owning (type :: elements)
  | _ => rfl

theorem ExpressionEntry.taken_eq (h : ExpressionEntry plan ids) : plan.taken = ids := by
  cases h <;> rfl

theorem StatementEntry.taken_eq (h : StatementEntry plan ids) : plan.taken = ids := by
  cases h <;> rfl

theorem DeclarationEntry.taken_eq (h : DeclarationEntry plan ids) : plan.taken = ids := by
  cases h with
  | field _ type other | parameter _ _ type other | localVariable _ type other
  | globalVariable _ _ type other => exact child?_owning (type :: other.toList)
  | _ => rfl

end Entries

end Blueprint

namespace Creation

/-- The nodes that the node which is made is to own, besides those that are made along the way. -/
def taken : Creation → List NodeId
  | begin _ => []
  | build plan => plan.taken
  | refer _ => []

/-- The creation takes in the nodes, as the catalog has it or, if it is put together by hand, as its
edges have it. -/
inductive Takes : Creation → List NodeId → Prop where
  | begin (kind : Kind Label) : Takes (.begin kind) []
  | refer (declaration : NodeId) : Takes (.refer declaration) []
  | type {plan : Blueprint} {ids : List NodeId} (h : plan.TypeEntry ids) : Takes (.build plan) ids
  | literal {plan : Blueprint} {ids : List NodeId} (h : plan.LiteralEntry ids) :
    Takes (.build plan) ids
  | expression {plan : Blueprint} {ids : List NodeId} (h : plan.ExpressionEntry ids) :
    Takes (.build plan) ids
  | statement {plan : Blueprint} {ids : List NodeId} (h : plan.StatementEntry ids) :
    Takes (.build plan) ids
  | declaration {plan : Blueprint} {ids : List NodeId} (h : plan.DeclarationEntry ids) :
    Takes (.build plan) ids
  | byHand (plan : Blueprint) : Takes (.build plan) plan.taken

/-- **The catalog takes what its tables say.** -/
theorem Takes.taken_eq {what : Creation} {ids : List NodeId} (h : what.Takes ids) :
    what.taken = ids := by
  cases h with
  | begin _ => rfl
  | refer _ => rfl
  | type h => exact h.taken_eq
  | literal h => exact h.taken_eq
  | expression h => exact h.taken_eq
  | statement h => exact h.taken_eq
  | declaration h => exact h.taken_eq
  | byHand _ => rfl

end Creation

end SyntaxGraph
