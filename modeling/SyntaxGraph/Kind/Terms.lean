import SyntaxGraph.Kind.Types

/-!
# Literals, expressions and statements

What such a node holds besides its children: the value of a literal, the name in
a name expression, the word of a keyword expression.
-/

namespace SyntaxGraph

/-- A value written down in the source. A float is kept as its bits, so that two of them are equal
exactly when they are written alike. -/
inductive Literal (ν : Type) where
  | null
  | bool (value : Bool)
  | string (text : ν)
  | signed (value : Int64) (width : UInt16)
  | unsigned (value : UInt64) (width : UInt16)
  | real (bits : UInt64)
  | tuple
  deriving DecidableEq, Repr

namespace Literal

variable {ν μ : Type}

/-- The literal with its text, if it is a string, changed by `f`. -/
def map (f : ν → μ) : Literal ν → Literal μ
  | null => null
  | bool value => bool value
  | string text => string (f text)
  | signed value width => signed value width
  | unsigned value width => unsigned value width
  | real bits => real bits
  | tuple => tuple

/-- The word for a literal, whatever its value. -/
def label : Literal ν → String
  | null => "Null"
  | bool _ => "Bool"
  | string _ => "String"
  | signed _ _ => "SignedInteger"
  | unsigned _ _ => "UnsignedInteger"
  | real _ => "Real"
  | tuple => "Tuple"

/-- The integer literal zero of a given type. -/
def zero : Signedness → UInt16 → Literal ν
  | .signed, width => signed 0 width
  | .unsigned, width => unsigned 0 width

/-- The bits of a float. -/
def realBits? : Literal ν → Option UInt64
  | real bits => some bits
  | _ => none

end Literal

/-- An expression that is a word of the language. -/
inductive Keyword where
  | self
  | dollarDollar
  | captures
  deriving DecidableEq, Repr

namespace Keyword

/-- How a keyword is written in a program. -/
def spelling : Keyword → String
  | self => "self"
  | dollarDollar => "$$"
  | captures => "$@"

/-- The word for a keyword in the outside world. -/
def label : Keyword → String
  | self => "SelfRef"
  | dollarDollar => "DollarDollar"
  | captures => "Captures"

/-- Every keyword. -/
def all : List Keyword := [self, dollarDollar, captures]

end Keyword

/-- The shape of an expression. -/
inductive Expression (ν : Type) where
  | literal
  | name (id : ν)
  | declarationRef
  | keyword (word : Keyword)
  | grouping
  | assign
  | logicalAnd
  | logicalOr
  | logicalNot
  | ternary
  | void
  deriving DecidableEq, Repr

namespace Expression

variable {ν μ : Type}

/-- The expression with its name, if it has one, changed by `f`. -/
def map (f : ν → μ) : Expression ν → Expression μ
  | literal => literal
  | name id => name (f id)
  | declarationRef => declarationRef
  | keyword word => keyword word
  | grouping => grouping
  | assign => assign
  | logicalAnd => logicalAnd
  | logicalOr => logicalOr
  | logicalNot => logicalNot
  | ternary => ternary
  | void => void

/-- The word for an expression, whatever its payload. -/
def label : Expression ν → String
  | literal => "Ctor"
  | name _ => "Name"
  | declarationRef => "DeclRef"
  | keyword _ => "Keyword"
  | grouping => "Grouping"
  | assign => "Assign"
  | logicalAnd => "LogicalAnd"
  | logicalOr => "LogicalOr"
  | logicalNot => "LogicalNot"
  | ternary => "Ternary"
  | void => "Void"

/-- The expressions that carry no payload. -/
def plain : List (Expression ν) :=
  [literal, declarationRef, grouping, assign, logicalAnd, logicalOr, logicalNot, ternary, void]

/-- The slot whose child an expression takes its type from, if it has none of its own. -/
def forwards? : Expression ν → Option Nat
  | literal | grouping | assign => some 0
  | ternary => some 1
  | _ => none

end Expression

/-- The shape of a statement. -/
inductive Statement where
  | breakLoop
  | continueLoop
  | expression
  | declaration
  | setLocation
  | yieldNow
  | returnValue
  deriving DecidableEq, Repr

namespace Statement

/-- The word for a statement. -/
def label : Statement → String
  | breakLoop => "Break"
  | continueLoop => "Continue"
  | expression => "Expression"
  | declaration => "Declaration"
  | setLocation => "SetLocation"
  | yieldNow => "Yield"
  | returnValue => "Return"

/-- Every statement. -/
def all : List Statement :=
  [breakLoop, continueLoop, expression, declaration, setLocation, yieldNow, returnValue]

end Statement

end SyntaxGraph
