import SyntaxGraph.Proofs.Reachable

/-!
# The room in the arena

An arena has a place for every id but the one that never names a node. A node is
added only where there is room for it, so no program comes to more nodes than
that, and no id that is ever answered is the invalid one.

The limit can be reached. A program that goes on making nodes comes to a full
arena, and from then on nothing is made, whatever is asked for: what depends on a
new node is stopped without a verdict about the request.
-/

namespace SyntaxGraph

namespace Graph

variable {g g' : Graph}

/-- **No change makes an arena larger than it can be.** -/
theorem size_change (h : g.size ≤ capacity) (hs : Change g g') : g'.size ≤ capacity := by
  cases hs with
  | begin kind span hroom =>
    rw [size_begin]
    exact hroom
  | push _ =>
    rw [addChild, size_modify, size_setOwner]
    exact h
  | freeze _ =>
    rw [finish, size_modify]
    exact h
  | create span hroom _ =>
    rw [size_insert]
    exact hroom
  | replace _ _ =>
    rw [setChild, size_modify, size_setOwner, size_setOwner]
    exact h

theorem size_le_capacity {c : Context} (h : Reachable c) : c.graph.size ≤ capacity :=
  reachable_invariant (Nat.zero_le _) size_change h

/-- The invalid id never names a node. -/
theorem invalid_not_mem {c : Context} (h : Reachable c) : .invalid ∉ c.graph :=
  Nat.not_lt.mpr (size_le_capacity h)

/-- Where there is no room the arena is full to the last place. -/
theorem size_eq_capacity {c : Context} (h : Reachable c) (hfull : ¬ c.graph.HasRoom 1) :
    c.graph.size = capacity := by
  have hnone : c.graph.HasRoom 0 := size_le_capacity h
  exact hnone.size_eq hfull

end Graph

/-! ## Crowds -/

/-- Makes so many types, one after the other. -/
def crowd (count : Nat) : List Command :=
  List.replicate count (.make (.build (.node (.type .bool) [])) .dummy)

theorem after_makeBool {c : Context} (h : c.graph.HasRoom 1) :
    after (Command.make (.build (.node (.type .bool) [])) .dummy).run c =
      { c with graph := c.graph.insert (.type .bool) [] .dummy } := by
  have hmade : Build.create (.type .bool) [] .dummy c = .ok c.graph.nextId
      { c with graph := c.graph.insert (.type .bool) [] .dummy } :=
    Build.create_eq_ok.mpr ⟨rfl, h, rfl, rfl⟩
  have hbuild : (Blueprint.node (.type .bool) []).build .dummy c =
      Build.create (.type .bool) [] .dummy c := rfl
  simp only [after, Command.run, Creation.run, bind, EStateM.bind, hbuild, hmade]
  rfl

/-- **A crowd is as large as there is room for.** -/
theorem size_crowd (count : Nat) : ∀ {c : Context}, c.graph.HasRoom count →
    (runAll (crowd count) c).graph.size = c.graph.size + count := by
  induction count with
  | zero => exact fun _ => rfl
  | succ count ih =>
    intro c h
    have hstep : runAll (crowd (count + 1)) c =
        runAll (crowd count) { c with graph := c.graph.insert (.type .bool) [] .dummy } := by
      rw [← after_makeBool (h.mono (Nat.le_add_left 1 count))]
      rfl
    rw [hstep, ih (Graph.hasRoom_insert.mpr h), Graph.size_insert]
    omega

/-- A program that has room for so many more nodes can use it up. -/
theorem exists_crowd {c : Context} {count : Nat} (h : c.graph.HasRoom count) :
    ∃ d, Leads c d ∧ d.graph.size = c.graph.size + count :=
  ⟨runAll (crowd count) c, leads_runAll _ (.refl c), size_crowd count h⟩

/-- **A program can fill the arena**, and then not one node can be added. -/
theorem exists_full : ∃ c, Reachable c ∧ ¬ c.graph.HasRoom 1 := by
  have hroom : Context.fresh.graph.HasRoom Graph.capacity := by decide
  obtain ⟨c, hc, hsize⟩ := exists_crowd hroom
  refine ⟨c, hc, fun hone => Nat.not_succ_le_self Graph.capacity ?_⟩
  rwa [Graph.HasRoom, hsize, Context.fresh, Graph.empty, Graph.size, Array.size_empty,
    Nat.zero_add] at hone

end SyntaxGraph
