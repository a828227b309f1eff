/-!
# Types

The shape of a type without its parts: element types, fields and operands are
children of the node. A type that is not known yet, or is only known by name, is
a placeholder.

Shapes and the other payloads are generic in what stands for a name: a node of a
graph holds interned names, a description shows their texts.
-/

namespace SyntaxGraph

/-- Whether an integer has a sign. -/
inductive Signedness where
  | signed
  | unsigned
  deriving DecidableEq, Repr

/-- The widths that an integer type may have, in bits. -/
def integerWidths : List UInt16 := [8, 16, 32, 64]

/-- The width is one of those that an integer type may have. -/
def isIntegerWidth (width : UInt16) : Bool := integerWidths.contains width

/-- The shape of a type. -/
inductive TypeShape (ν : Type) where
  | address
  | any
  | bool
  | error
  | interval
  | network
  | null
  | portNumber
  | real
  | regExp
  | string
  | time
  | void
  | unknown
  | integer (sign : Signedness) (width : UInt16)
  | tuple
  | struct
  | operandList
  | function
  | optional
  | vector
  | name (id : ν)
  deriving DecidableEq, Repr

namespace TypeShape

variable {ν μ : Type}

/-- The shape with its name, if it has one, changed by `f`. -/
def map (f : ν → μ) : TypeShape ν → TypeShape μ
  | address => address
  | any => any
  | bool => bool
  | error => error
  | interval => interval
  | network => network
  | null => null
  | portNumber => portNumber
  | real => real
  | regExp => regExp
  | string => string
  | time => time
  | void => void
  | unknown => unknown
  | integer sign width => integer sign width
  | tuple => tuple
  | struct => struct
  | operandList => operandList
  | function => function
  | optional => optional
  | vector => vector
  | name id => name (f id)

/-- The word for a shape, whatever its payload. -/
def label : TypeShape ν → String
  | address => "Address"
  | any => "Any"
  | bool => "Bool"
  | error => "Error"
  | interval => "Interval"
  | network => "Network"
  | null => "Null"
  | portNumber => "Port"
  | real => "Real"
  | regExp => "RegExp"
  | string => "String"
  | time => "Time"
  | void => "Void"
  | unknown => "Unknown"
  | integer .signed _ => "SignedInteger"
  | integer .unsigned _ => "UnsignedInteger"
  | tuple => "Tuple"
  | struct => "Struct"
  | operandList => "OperandList"
  | function => "Function"
  | optional => "Optional"
  | vector => "Vector"
  | name _ => "Name"

/-- The shapes that carry no payload. -/
def plain : List (TypeShape ν) :=
  [address, any, bool, error, interval, network, null, portNumber, real, regExp, string, time, void,
    unknown, tuple, struct, operandList, function, optional, vector]

/-- A value of the type can be stored. -/
def isAllocable : TypeShape ν → Bool
  | any | error | null | void | unknown | operandList | function | name _ => false
  | _ => true

/-- The values of the type have an order. -/
def isSortable : TypeShape ν → Bool
  | any | error | null | regExp | void | unknown | struct | operandList | function | optional
  | vector | name _ => false
  | _ => true

/-- The shape stands for a type that is still to be found. -/
def isPlaceholder : TypeShape ν → Bool
  | unknown | name _ => true
  | _ => false

/-- The width of an integer type. -/
def integerWidth? : TypeShape ν → Option UInt16
  | integer _ width => some width
  | _ => none

end TypeShape

/-- What a qualified type says about the type it wraps. -/
structure Qualifiers where
  /-- A value of the type cannot be assigned to. -/
  const : Bool
  /-- The type is to be inferred. -/
  inferred : Bool
  deriving DecidableEq, Repr

namespace Qualifiers

/-- No qualifier. -/
def none : Qualifiers := ⟨false, false⟩

/-- The qualifier of a value that cannot be assigned to. -/
def onlyConst : Qualifiers := ⟨true, false⟩

/-- The qualifier of a type that is to be inferred. -/
def onlyInferred : Qualifiers := ⟨false, true⟩

/-- The words for the qualifiers that hold, in a fixed order. -/
def labels (q : Qualifiers) : List String :=
  (if q.const then ["const"] else []) ++ (if q.inferred then ["inferred"] else [])

end Qualifiers

end SyntaxGraph
