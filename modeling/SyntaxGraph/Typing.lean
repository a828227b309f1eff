import SyntaxGraph.Graph.Unseen

/-!
# Types of nodes

A literal, a declaration and most expressions hold their qualified type in the
first slot. A literal expression, a grouping, an assignment and a conditional
have the type of one of their children, and so on along a chain of such
expressions. References can close the chain into a circle, and then there is no
type.
-/

namespace SyntaxGraph.Graph

/-- The qualified type found along the chain from a node, which ends at a node seen before. -/
def typeFrom (g : Graph) (id : NodeId) (seen : NodeSet) : Except Fault (Option NodeId) :=
  if _entered : id ∈ seen then .ok none
  else
    match _found : g.node? id with
    | none => .error (.stray id)
    | some node =>
      match node.kind with
      | .literal _ | .declaration _ => .ok (node.target? 0)
      | .expression shape =>
        match shape.forwards? with
        | none => .ok (node.target? 0)
        | some slot =>
          match node.target? slot with
          | none => .ok none
          | some next => g.typeFrom next (seen.insert id)
      | .type _ | .qualifiedType _ | .statement _ => .ok none
termination_by g.unseen seen fun _ => 1
decreasing_by
  have := unseen_insert (fun _ => 1) (mem_iff_node?.mpr ⟨node, _found⟩) _entered
  omega

/-- The qualified type of the value of a node. -/
def typeOf (g : Graph) (id : NodeId) : Except Fault (Option NodeId) := g.typeFrom id .empty

/-- The type that a qualified type wraps. -/
def unqualified (g : Graph) (id : NodeId) : Except Fault (Option NodeId) := do
  let node ← g.read id
  match node.kind with
  | .qualifiedType _ => return node.target? 0
  | _ => return none

/-- The qualifiers of a qualified type. -/
def qualifiers (g : Graph) (id : NodeId) : Except Fault (Option Qualifiers) := do
  return (← g.read id).kind.qualifiers?

/-- The shape of the type behind a type, a qualified type or a value, at most `steps` types of
values away. -/
def valueTypeWithin (g : Graph) : (steps : Nat) → NodeId → Except Fault (Option (TypeShape Name))
  | 0, _ => .error .unending
  | steps + 1, id => do
    let node ← g.read id
    match node.kind with
    | .type shape => return some shape
    | .qualifiedType _ =>
      match node.target? 0 with
      | some wrapped => return (← g.read wrapped).kind.type?
      | none => return none
    | .literal _ | .expression _ | .declaration _ =>
      match ← g.typeOf id with
      | some type => g.valueTypeWithin steps type
      | none => return none
    | .statement _ => return none

/-- The shape of the type behind a type, a qualified type or a value. -/
def valueType (g : Graph) (id : NodeId) : Except Fault (Option (TypeShape Name)) :=
  g.valueTypeWithin (g.size + 1) id

/-- A value of the node's type can be stored. -/
def isAllocable (g : Graph) (id : NodeId) : Except Fault Bool :=
  (g.valueType id).map fun shape => shape.any TypeShape.isAllocable

/-- The values of the node's type have an order. -/
def isSortable (g : Graph) (id : NodeId) : Except Fault Bool :=
  (g.valueType id).map fun shape => shape.any TypeShape.isSortable

/-- The value zero that an integer type owns. -/
def integerDefault (g : Graph) (id : NodeId) : Except Fault (Option NodeId) := do
  let node ← g.read id
  match node.kind with
  | .type (.integer _ _) => return node.target? 0
  | _ => return none

end SyntaxGraph.Graph
