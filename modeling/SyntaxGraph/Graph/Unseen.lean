import SyntaxGraph.Graph.Basic

/-!
# What a walk has still to see

A walk that enters no node twice ends, because the nodes it has not seen become
fewer. Each node is given a weight, and the weights of the unseen nodes are added
up. The main statement is that seeing a node takes exactly its weight away.
-/

namespace SyntaxGraph.Graph

/-- The weights of some nodes, added up. -/
def total (weight : NodeId → Nat) : List NodeId → Nat
  | [] => 0
  | id :: rest => weight id + total weight rest

/-- The total weight of the nodes that are not in the set. -/
def unseen (g : Graph) (seen : NodeSet) (weight : NodeId → Nat) : Nat :=
  total (fun id => if id ∈ seen then 0 else weight id) g.ids

theorem total_congr {l : List NodeId} {v w : NodeId → Nat} (h : ∀ b ∈ l, v b = w b) :
    total v l = total w l := by
  induction l with
  | nil => rfl
  | cons b l ih =>
    rw [total, total, h b List.mem_cons_self, ih fun c hc => h c (List.mem_cons_of_mem _ hc)]

/-- Where no node occurs twice, a node that comes to weigh nothing takes away what it weighed. -/
theorem total_drop {l : List NodeId} {a : NodeId} (hl : l.Nodup) (ha : a ∈ l)
    {v w : NodeId → Nat} (hz : v a = 0) (hv : ∀ b, b ≠ a → v b = w b) :
    total v l + w a = total w l := by
  induction l with
  | nil => simp at ha
  | cons b l ih =>
    rw [List.nodup_cons] at hl
    rw [total, total]
    by_cases hab : b = a
    · subst hab
      have heq : total v l = total w l :=
        total_congr fun c hc => hv c fun h => hl.1 (h ▸ hc)
      omega
    · have hmem : a ∈ l := (List.mem_cons.mp ha).resolve_left fun h => hab h.symm
      have hrest := ih hl.2 hmem
      rw [hv b hab]
      omega

theorem nodup_ids (g : Graph) : g.ids.Nodup :=
  List.pairwise_map.mpr (List.nodup_range.imp fun hne h => hne (NodeId.mk.inj h))

theorem mem_ids {g : Graph} {id : NodeId} : id ∈ g.ids ↔ id ∈ g := by
  rcases id with ⟨i⟩
  simp [ids, mem_def]

/-- Seeing a node takes its weight away. -/
theorem unseen_insert {g : Graph} {seen : NodeSet} {id : NodeId} (weight : NodeId → Nat)
    (hg : id ∈ g) (hs : id ∉ seen) :
    g.unseen (seen.insert id) weight + weight id = g.unseen seen weight := by
  have h := total_drop (nodup_ids g) (mem_ids.mpr hg)
    (v := fun b => if b ∈ seen.insert id then 0 else weight b)
    (w := fun b => if b ∈ seen then 0 else weight b)
    (by simp) (fun b hb => by simp [NodeSet.mem_insert, Ne.symm hb])
  simpa [unseen, hs] using h

end SyntaxGraph.Graph
