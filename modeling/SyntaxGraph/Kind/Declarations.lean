/-!
# Declarations

What is declared, under which name, and how it is passed or linked. The declared
type and value are children of the node.
-/

namespace SyntaxGraph

/-- How an argument is passed. -/
inductive PassingMode where
  | input
  | inout
  | copy
  deriving DecidableEq, Repr

/-- The word for a passing mode. -/
def PassingMode.label : PassingMode → String
  | input => "in"
  | inout => "inout"
  | copy => "copy"

/-- Who can see a global variable. -/
inductive Linkage where
  | hidden
  | exported
  deriving DecidableEq, Repr

/-- The word for a linkage. -/
def Linkage.label : Linkage → String
  | hidden => "private"
  | exported => "public"

/-- What is declared. Only the element of a tuple may be without a name. -/
inductive Declaration (ν : Type) where
  | field (id : ν)
  | parameter (id : ν) (mode : PassingMode)
  | localVariable (id : ν)
  | globalVariable (id : ν) (linkage : Linkage)
  | constant (id : ν)
  | type (id : ν)
  | tupleElement (id : Option ν)
  deriving DecidableEq, Repr

namespace Declaration

variable {ν μ : Type}

/-- The declaration with its name, if it has one, changed by `f`. -/
def map (f : ν → μ) : Declaration ν → Declaration μ
  | field id => field (f id)
  | parameter id mode => parameter (f id) mode
  | localVariable id => localVariable (f id)
  | globalVariable id linkage => globalVariable (f id) linkage
  | constant id => constant (f id)
  | type id => type (f id)
  | tupleElement id => tupleElement (id.map f)

/-- The word for a declaration, whatever its name. -/
def label : Declaration ν → String
  | field _ => "Field"
  | parameter _ _ => "Parameter"
  | localVariable _ => "LocalVariable"
  | globalVariable _ _ => "GlobalVariable"
  | constant _ => "Constant"
  | type _ => "Type"
  | tupleElement _ => "TupleElement"

/-- The declared name. -/
def id? : Declaration ν → Option ν
  | field id | parameter id _ | localVariable id | globalVariable id _ | constant id | type id =>
    some id
  | tupleElement id => id

end Declaration

end SyntaxGraph
