import SyntaxGraph.Proofs.Phases

/-!
# Integer types make themselves

An integer type owns its default value, and the value is of that very type. So
the type is begun first; then come the constant type of the value, which refers
to it, and the value; and last the type takes in the value and is finished. Every
step after the first could be refused. None of them ever is, in any graph: each
works on nodes that the steps before have just made. What can stop them is the
arena, which has to have room for three nodes.
-/

namespace SyntaxGraph

namespace Graph

variable {g : Graph}

/-- A node with one child is accepted if the child fits the first slot and, in case the node is to
own it, is free. -/
theorem checkCreate_singleton {kind : Kind Name} {e : Edge}
    (hcount : kind.layout.acceptsLength 1 = true) (hfits : g.Fits kind 0 e.target)
    (hfree : ∀ child, e = .owned child → g.Free child) : g.checkCreate kind [e] = .ok () := by
  refine checkCreate_eq_ok.mpr ⟨hcount, fun index e' he => ?_⟩
  cases index with
  | succ index => simp at he
  | zero =>
    obtain rfl : e = e' := by simpa using he
    exact ⟨hfits, fun child hc => ⟨hfree child hc, by simp⟩⟩

variable (g) (sign : Signedness) (width : UInt16) (span : Span)

/-- The graph with an integer type and its default value: the type, the constant type of the value,
which refers to it, and the value, in this order. -/
def withInteger : Graph :=
  ((g.push ⟨.type (.integer sign width), span, [.owned ⟨g.size + 2⟩], none, true⟩).push
    ⟨.qualifiedType .onlyConst, span, [.ref g.nextId], some ⟨g.size + 2⟩, true⟩).push
    ⟨.literal (.zero sign width), span, [.owned ⟨g.size + 1⟩], some g.nextId, true⟩

theorem size_withInteger : (g.withInteger sign width span).size = g.size + 3 := by
  rw [withInteger, size_push, size_push, size_push]

theorem node?_withInteger (id : NodeId) : (g.withInteger sign width span).node? id =
    if id = ⟨g.size + 2⟩ then
      some ⟨.literal (.zero sign width), span, [.owned ⟨g.size + 1⟩], some g.nextId, true⟩
    else if id = ⟨g.size + 1⟩ then
      some ⟨.qualifiedType .onlyConst, span, [.ref g.nextId], some ⟨g.size + 2⟩, true⟩
    else if id = g.nextId then
      some ⟨.type (.integer sign width), span, [.owned ⟨g.size + 2⟩], none, true⟩
    else g.node? id := by
  rw [withInteger, node?_push, node?_push, node?_push]
  simp only [nextId, size_push]

/-- The graph with an integer type that has no value yet, and the constant type of the value. -/
def withShell : Graph :=
  (g.begin (.type (.integer sign width)) span).insert (.qualifiedType .onlyConst)
    [.ref g.nextId] span

/-- The graph with an integer type that has no value yet, the constant type and the value. -/
def withValue : Graph :=
  (g.withShell sign width span).insert (.literal (.zero sign width)) [.owned ⟨g.size + 1⟩] span

theorem size_withShell : (g.withShell sign width span).size = g.size + 2 := by
  rw [withShell, size_insert, size_begin]

theorem nextId_withShell : (g.withShell sign width span).nextId = ⟨g.size + 2⟩ := by
  rw [nextId, size_withShell]

theorem node?_withShell (id : NodeId) :
    (g.withShell sign width span).node? id =
      if id = ⟨g.size + 1⟩ then
        some ⟨.qualifiedType .onlyConst, span, [.ref g.nextId], none, true⟩
      else if id = g.nextId then some ⟨.type (.integer sign width), span, [], none, false⟩
      else g.node? id := by
  rw [withShell, node?_insert, nextId, size_begin, node?_begin]
  by_cases h : id = g.nextId
  · simp [h]
  · simp [h]

theorem node?_withValue (id : NodeId) :
    (g.withValue sign width span).node? id =
      if id = ⟨g.size + 2⟩ then
        some ⟨.literal (.zero sign width), span, [.owned ⟨g.size + 1⟩], none, true⟩
      else if id = ⟨g.size + 1⟩ then
        some ⟨.qualifiedType .onlyConst, span, [.ref g.nextId], some ⟨g.size + 2⟩, true⟩
      else if id = g.nextId then some ⟨.type (.integer sign width), span, [], none, false⟩
      else g.node? id := by
  rw [withValue, node?_insert, nextId_withShell, node?_withShell]
  by_cases h : id = ⟨g.size + 1⟩
  · simp [h]
  · by_cases h' : id = g.nextId
    · simp [h', nextId]
    · simp [h, h']

theorem finish_withValue :
    ((g.withValue sign width span).addChild g.nextId (.owned ⟨g.size + 2⟩)).finish g.nextId =
      g.withInteger sign width span := by
  refine ext_node? fun id => ?_
  rw [node?_finish, node?_addChild, node?_withValue, node?_withInteger]
  simp only [nextId]
  by_cases h : id = ⟨g.size + 2⟩
  · simp [h]
  by_cases h' : id = ⟨g.size + 1⟩
  · simp [h']
  by_cases h'' : id = ⟨g.size⟩
  · simp [h'']
  · simp [h, h', h'', Ne.symm h]

theorem checkCreate_shell : (g.begin (.type (.integer sign width)) span).checkCreate
    (.qualifiedType .onlyConst) [.ref g.nextId] = .ok () := by
  have htype := (node?_begin g (.type (.integer sign width)) span g.nextId).trans (if_pos rfl)
  exact checkCreate_singleton rfl ⟨_, htype, rfl⟩ fun _ => nofun

theorem checkCreate_value : (g.withShell sign width span).checkCreate
    (.literal (.zero sign width)) [.owned ⟨g.size + 1⟩] = .ok () := by
  have hconstant := (node?_withShell g sign width span ⟨g.size + 1⟩).trans (if_pos rfl)
  have hlayout : (Kind.literal (.zero sign width) : Kind Name).layout =
      .exactly [.qualifiedType] := by
    cases sign <;> rfl
  refine checkCreate_singleton (by rw [hlayout]; rfl)
    ⟨_, hconstant, by rw [hlayout]; rfl⟩ fun child hc => ?_
  obtain rfl := Edge.owned.inj hc
  exact ⟨by simp [isFrozen, hconstant], by simp [parent?, hconstant]⟩

/-- The type is still under construction when its value is there. -/
theorem node?_withValue_nextId : (g.withValue sign width span).node? g.nextId =
    some ⟨.type (.integer sign width), span, [], none, false⟩ := by
  have hne : g.nextId ≠ ⟨g.size + 1⟩ := by simp [nextId]
  have hne' : g.nextId ≠ ⟨g.size + 2⟩ := by simp [nextId]
  rw [node?_withValue, if_neg hne', if_neg hne, if_pos rfl]

theorem checkPush_value : (g.withValue sign width span).checkPush g.nextId (.owned ⟨g.size + 2⟩) =
    .ok () := by
  have hne : g.nextId ≠ ⟨g.size + 2⟩ := by simp [nextId]
  have htype := g.node?_withValue_nextId sign width span
  have hzero := (node?_withValue g sign width span ⟨g.size + 2⟩).trans (if_pos rfl)
  refine checkPush_eq_ok.mpr ⟨_, htype, rfl, ⟨_, hzero, rfl⟩, fun child hc => ?_⟩
  obtain rfl := Edge.owned.inj hc
  refine ⟨⟨by simp [isFrozen, hzero], by simp [parent?, hzero]⟩, ?_⟩
  rw [isAbove, isAboveWithin, if_neg hne, htype]

theorem checkFreeze_value :
    ((g.withValue sign width span).addChild g.nextId (.owned ⟨g.size + 2⟩)).checkFreeze g.nextId =
      .ok () := by
  have hnode := node?_addChild (g.withValue sign width span) g.nextId (.owned ⟨g.size + 2⟩) g.nextId
  rw [node?_withValue_nextId, Option.map_some, if_pos rfl] at hnode
  exact checkFreeze_eq_ok.mpr ⟨_, hnode, rfl, rfl⟩

end Graph

/-! ## The request -/

namespace Build

variable {g : Graph} {names : Interner} {sign : Signedness} {width : UInt16} {span : Span}

/-- The constant type of the value is made if there is a place for it besides the type. -/
theorem create_constant (h : g.HasRoom 2) : create (.qualifiedType .onlyConst) [.ref g.nextId] span
    ⟨g.begin (.type (.integer sign width)) span, names⟩ =
      .ok ⟨g.size + 1⟩ ⟨g.withShell sign width span, names⟩ := by
  refine create_eq_ok.mpr
    ⟨g.checkCreate_shell sign width span, Graph.hasRoom_begin.mpr h, ?_, rfl⟩
  rw [Graph.nextId, Graph.size_begin]

/-- The value takes a third place. -/
theorem create_zero (h : g.HasRoom 3) : create (.literal (.zero sign width)) [.owned ⟨g.size + 1⟩]
    span ⟨g.withShell sign width span, names⟩ =
      .ok ⟨g.size + 2⟩ ⟨g.withValue sign width span, names⟩ := by
  have hroom : (g.withShell sign width span).HasRoom 1 :=
    Graph.hasRoom_insert.mpr (Graph.hasRoom_begin.mpr h)
  exact create_eq_ok.mpr ⟨g.checkCreate_value sign width span, hroom,
    (g.nextId_withShell sign width span).symm, rfl⟩

/-- **An integer type of an accepted width is never refused**, and it is made if there is room for
three nodes. -/
theorem integerType_eq_ok (hw : isIntegerWidth width = true) (span : Span) {c : Context}
    (hroom : c.graph.HasRoom 3) : integerType sign width span c =
      .ok c.graph.nextId { c with graph := c.graph.withInteger sign width span } := by
  obtain ⟨g, names⟩ := c
  have hbegin : begin (.type (.integer sign width)) span ⟨g, names⟩ =
      .ok g.nextId ⟨g.begin (.type (.integer sign width)) span, names⟩ :=
    begin_eq_ok.mpr ⟨hroom.mono (by decide), rfl, rfl⟩
  have hconstant : create (.qualifiedType .onlyConst) [.ref g.nextId] span
      ⟨g.begin (.type (.integer sign width)) span, names⟩ = _ :=
    create_constant (hroom.mono (by decide))
  have hzero : create (.literal (.zero sign width)) [.owned ⟨g.size + 1⟩] span
      ⟨g.withShell sign width span, names⟩ = _ := create_zero hroom
  have hpush : pushChild g.nextId (.owned ⟨g.size + 2⟩) ⟨g.withValue sign width span, names⟩ = _ :=
    pushChild_eq_ok.mpr ⟨g.checkPush_value sign width span, rfl⟩
  have hfreeze : freeze g.nextId
      ⟨(g.withValue sign width span).addChild g.nextId (.owned ⟨g.size + 2⟩), names⟩ =
        .ok () ⟨g.withInteger sign width span, names⟩ :=
    freeze_eq_ok.mpr ⟨g.checkFreeze_value sign width span, by rw [g.finish_withValue]⟩
  unfold integerType
  simp only [hw, Bool.not_true, Bool.false_eq_true, if_false]
  simp only [bind, EStateM.bind, hbegin, hconstant, hzero, hpush, hfreeze, pure, EStateM.pure]

/-- The first nodes of an integer type for which there is no room. -/
inductive Started (g : Graph) (sign : Signedness) (width : UInt16) (span : Span) :
    Graph → Prop where
  | none : Started g sign width span g
  | type : Started g sign width span (g.begin (.type (.integer sign width)) span)
  | shell : Started g sign width span (g.withShell sign width span)

section Full

variable (hw : isIntegerWidth width = true)

include hw

theorem integerType_of_room_none (hone : ¬ g.HasRoom 1) :
    integerType sign width span ⟨g, names⟩ = .error (.full g.size) ⟨g, names⟩ := by
  have hbegin : begin (.type (.integer sign width)) span ⟨g, names⟩ = _ := begin_of_full hone
  unfold integerType
  simp only [hw, Bool.not_true, Bool.false_eq_true, if_false]
  simp only [bind, EStateM.bind, hbegin]

theorem integerType_of_room_one (hone : g.HasRoom 1) (htwo : ¬ g.HasRoom 2) :
    integerType sign width span ⟨g, names⟩ = .error (.full (g.size + 1))
      ⟨g.begin (.type (.integer sign width)) span, names⟩ := by
  have hbegin : begin (.type (.integer sign width)) span ⟨g, names⟩ = _ :=
    begin_eq_ok.mpr ⟨hone, rfl, rfl⟩
  have hfull : ¬ (g.begin (.type (.integer sign width)) span).HasRoom 1 := fun h =>
    htwo (Graph.hasRoom_begin.mp h)
  have hconstant : create (.qualifiedType .onlyConst) [.ref g.nextId] span
      ⟨g.begin (.type (.integer sign width)) span, names⟩ = _ :=
    create_of_full (g.checkCreate_shell sign width span) hfull
  unfold integerType
  simp only [hw, Bool.not_true, Bool.false_eq_true, if_false]
  simp only [bind, EStateM.bind, hbegin, hconstant, Graph.size_begin]

theorem integerType_of_room_two (htwo : g.HasRoom 2) (hthree : ¬ g.HasRoom 3) :
    integerType sign width span ⟨g, names⟩ = .error (.full (g.size + 2))
      ⟨g.withShell sign width span, names⟩ := by
  have hbegin : begin (.type (.integer sign width)) span ⟨g, names⟩ = _ :=
    begin_eq_ok.mpr ⟨htwo.mono (by decide), rfl, rfl⟩
  have hconstant : create (.qualifiedType .onlyConst) [.ref g.nextId] span
      ⟨g.begin (.type (.integer sign width)) span, names⟩ = _ := create_constant htwo
  have hfull : ¬ (g.withShell sign width span).HasRoom 1 := fun h =>
    hthree (Graph.hasRoom_begin.mp (Graph.hasRoom_insert.mp h))
  have hzero : create (.literal (.zero sign width)) [.owned ⟨g.size + 1⟩] span
      ⟨g.withShell sign width span, names⟩ = _ :=
    create_of_full (g.checkCreate_value sign width span) hfull
  unfold integerType
  simp only [hw, Bool.not_true, Bool.false_eq_true, if_false]
  simp only [bind, EStateM.bind, hbegin, hconstant, hzero, Graph.size_withShell]

end Full

/-- Without room for three nodes the arena fills up on the way. -/
theorem integerType_of_full (hw : isIntegerWidth width = true) (span : Span) {c : Context}
    (hroom : ¬ c.graph.HasRoom 3) : ∃ g, Started c.graph sign width span g
      ∧ (c.graph.size ≤ Graph.capacity → g.size = Graph.capacity)
      ∧ integerType sign width span c = .error (.full g.size) { c with graph := g } := by
  obtain ⟨g, names⟩ := c
  -- one of the three places is the first that is missing
  by_cases hone : g.HasRoom 1
  · by_cases htwo : g.HasRoom 2
    · refine ⟨_, .shell, fun _ => ?_, ?_⟩
      · rw [Graph.size_withShell]
        exact htwo.size_eq hroom
      · rw [integerType_of_room_two hw htwo hroom, Graph.size_withShell]
    · refine ⟨_, .type, fun _ => ?_, ?_⟩
      · rw [Graph.size_begin]
        exact hone.size_eq htwo
      · rw [integerType_of_room_one hw hone htwo, Graph.size_begin]
  · refine ⟨_, .none, fun hsize => ?_, integerType_of_room_none hw hone⟩
    have hnone : g.HasRoom 0 := hsize
    exact hnone.size_eq hone

/-- Any other width is refused, before anything is made. -/
theorem integerType_eq_error (hw : isIntegerWidth width = false) (span : Span) (c : Context) :
    integerType sign width span c = .error (.node (.invalidIntegerWidth width)) c := by
  simp only [integerType, hw]
  rfl

end Build

end SyntaxGraph
