import SyntaxGraph.Blueprint.Basic

/-!
# The catalog of blueprints

One blueprint for each thing a program can contain, named for that thing. The
children that a blueprint is given are owned by the node it makes, unless its
name says otherwise.
-/

namespace SyntaxGraph.Blueprint

/-- Edges that own the nodes. -/
def owning (ids : List NodeId) : List Edge := ids.map Edge.owned

/-- Edges that own a node, and another one if there is one. -/
def owningWith (id : NodeId) (other : Option NodeId) : List Edge := owning (id :: other.toList)

/-- The qualifiers of a value that can be assigned to, or not. -/
def qualifiersOf (isConst : Bool) : Qualifiers := ⟨isConst, false⟩

/-! ## Types -/

def leafType (shape : TypeShape Label) : Blueprint := node (.type shape) []

def boolType : Blueprint := leafType .bool

def stringType : Blueprint := leafType .string

def voidType : Blueprint := leafType .void

/-- A type that is not known yet. -/
def unknownType : Blueprint := leafType .unknown

/-- A type that is known by name only. -/
def nameType (id : String) : Blueprint := leafType (.name (.text id))

def tupleType (elements : List NodeId) : Blueprint := node (.type .tuple) (owning elements)

def structType (fields : List NodeId) : Blueprint := node (.type .struct) (owning fields)

def operandListType (operands : List NodeId) : Blueprint :=
  node (.type .operandList) (owning operands)

def functionType (result operands : NodeId) : Blueprint :=
  node (.type .function) (owning [result, operands])

/-- A type of values that may be absent. -/
def optionalType (element : NodeId) : Blueprint := node (.type .optional) (owning [element])

/-- A type of sequences. -/
def vectorType (element : NodeId) : Blueprint := node (.type .vector) (owning [element])

/-- A qualified type that owns the type it wraps. -/
def qualifiedType (type : NodeId) (isConst : Bool) : Blueprint :=
  node (.qualifiedType (qualifiersOf isConst)) [.owned type]

/-- A qualified type that refers to the type it wraps. -/
def qualifiedRef (type : NodeId) (isConst : Bool) : Blueprint :=
  node (.qualifiedType (qualifiersOf isConst)) [.ref type]

/-- A qualified type that is to be inferred. -/
def inferredType : Blueprint := qualified .onlyInferred (.leaf .unknown)

/-! ## Literals -/

/-- A literal with a constant type of its own. -/
def constant (value : Literal Label) (type : FreshType) : Blueprint :=
  typed (.literal value) .onlyConst type []

def null : Blueprint := constant .null (.leaf .null)

def bool (value : Bool) : Blueprint := constant (.bool value) (.leaf .bool)

def string (text : String) : Blueprint := constant (.string (.text text)) (.leaf .string)

def signed (value : Int64) (width : UInt16) : Blueprint :=
  constant (.signed value width) (.integer .signed width)

def unsigned (value : UInt64) (width : UInt16) : Blueprint :=
  constant (.unsigned value width) (.integer .unsigned width)

/-- A float, by its bits. -/
def real (bits : UInt64) : Blueprint := constant (.real bits) (.leaf .real)

def tuple (type : NodeId) (elements : List NodeId) : Blueprint :=
  node (.literal .tuple) (owning (type :: elements))

/-! ## Expressions -/

def literal (value : NodeId) : Blueprint := node (.expression .literal) (owning [value])

/-- A name that is still to be found, of a type that is to be inferred. -/
def name (id : String) : Blueprint :=
  typed (.expression (.name (.text id))) .onlyInferred (.leaf .unknown) []

/-- A keyword of a given type. -/
def keyword (word : Keyword) (type : NodeId) : Blueprint :=
  node (.expression (.keyword word)) (owning [type])

def grouping (inner : NodeId) : Blueprint := node (.expression .grouping) (owning [inner])

def assign (target source : NodeId) : Blueprint :=
  node (.expression .assign) (owning [target, source])

/-- An operator whose result is a constant truth value. -/
def logical (operator : Expression Label) (operands : List NodeId) : Blueprint :=
  typed (.expression operator) .onlyConst (.leaf .bool) (owning operands)

def logicalAnd (left right : NodeId) : Blueprint := logical .logicalAnd [left, right]

def logicalOr (left right : NodeId) : Blueprint := logical .logicalOr [left, right]

def logicalNot (operand : NodeId) : Blueprint := logical .logicalNot [operand]

def ternary (condition ifTrue ifFalse : NodeId) : Blueprint :=
  node (.expression .ternary) (owning [condition, ifTrue, ifFalse])

/-- The expression without a value. -/
def void : Blueprint := typed (.expression .void) .onlyConst (.leaf .void) []

/-! ## Statements -/

def breakLoop : Blueprint := node (.statement .breakLoop) []

def continueLoop : Blueprint := node (.statement .continueLoop) []

/-- The statement that gives up control for a while. -/
def yieldNow : Blueprint := node (.statement .yieldNow) []

def expressionStatement (value : NodeId) : Blueprint :=
  node (.statement .expression) (owning [value])

def declarationStatement (what : NodeId) : Blueprint :=
  node (.statement .declaration) (owning [what])

/-- The statement that says where the program is. -/
def setLocation (location : NodeId) : Blueprint :=
  node (.statement .setLocation) (owning [location])

/-- The statement that leaves a function, with a value or without one. -/
def returnValue (value : Option NodeId) : Blueprint :=
  node (.statement .returnValue) (owning value.toList)

/-! ## Declarations -/

def field (id : String) (type : NodeId) (default? : Option NodeId) : Blueprint :=
  node (.declaration (.field (.text id))) (owningWith type default?)

def parameter (id : String) (mode : PassingMode) (type : NodeId) (default? : Option NodeId) :
    Blueprint :=
  node (.declaration (.parameter (.text id) mode)) (owningWith type default?)

def localVariable (id : String) (type : NodeId) (initial : Option NodeId) : Blueprint :=
  node (.declaration (.localVariable (.text id))) (owningWith type initial)

def globalVariable (id : String) (linkage : Linkage) (type : NodeId) (initial : Option NodeId) :
    Blueprint :=
  node (.declaration (.globalVariable (.text id) linkage)) (owningWith type initial)

def namedConstant (id : String) (type value : NodeId) : Blueprint :=
  node (.declaration (.constant (.text id))) (owning [type, value])

def namedType (id : String) (type : NodeId) : Blueprint :=
  node (.declaration (.type (.text id))) (owning [type])

/-- An element of a tuple, with a name or without one. -/
def tupleElement (id : Option String) (type : NodeId) : Blueprint :=
  node (.declaration (.tupleElement (id.map .text))) (owning [type])

end SyntaxGraph.Blueprint
