import SyntaxGraph.Proofs.FullShards
import SyntaxGraph.Proofs.Sharing

/-!
# Units that share a table do not notice each other

The clients of a workspace take turns. A turn is a script of one of them, as long
or short as one likes, so the turns may be the single operations of the units in
any order. Between its turns, and where a script pauses, a unit finds that the
table has grown, and that is all that it could notice of the others.

It goes as far as the room in the table goes. Once one unit has filled a shard, the
others are refused what they would be given alone.
-/

namespace SyntaxGraph

open Interner (Full Below)

variable {α : Type}

/-! ## Sessions -/

/-- The unit 0 and as many others, which share its table. -/
def Workspace.sharing : (others : Nat) → Workspace
  | 0 => .fresh
  | others + 1 => (sharing others).addUnit (some 0)

/-- Units at work: the names that each client has, and what came of the scripts so far. -/
structure Session (α : Type) where
  workspace : Workspace
  hands : Nat → List Name
  log : List (Nat × α)

namespace Session

/-- Units that share a table and have done nothing yet. -/
def start (others : Nat) : Session α := ⟨.sharing others, fun _ => [], []⟩

/-- The client of a unit runs a script. If there is no such unit nothing happens. -/
def turn (s : Session α) (t : Nat × Script .writes α) : Session α :=
  let step (c : Context) : (α × List Name) × Context :=
    let (result, d) := t.2.eval ⟨c, s.hands t.1⟩
    ((result, d.hand), d.context)
  match s.workspace.update t.1 step with
  | some ((result, hand), w) => ⟨w, Function.update s.hands t.1 hand, s.log ++ [(t.1, result)]⟩
  | none => s

/-- The clients take turns. -/
def run (s : Session α) (turns : List (Nat × Script .writes α)) : Session α := turns.foldl turn s

/-- A unit and its client. -/
def client? (s : Session α) (unit : Nat) : Option Client :=
  (s.workspace.context? unit).map fun c => ⟨c, s.hands unit⟩

/-- What came of the scripts of one client. -/
def results (s : Session α) (unit : Nat) : List α :=
  s.log.filterMap fun entry => if entry.1 = unit then some entry.2 else none

end Session

/-- What comes of scripts that a client runs one after the other. -/
def Client.runAll (d : Client) : List (Script .writes α) → List α × Client
  | [] => ([], d)
  | script :: rest =>
    let (result, d) := script.eval d
    let (results, d) := d.runAll rest
    (result :: results, d)

/-- The scripts of one client, as they are where there are no others. -/
def ownScripts (unit : Nat) (turns : List (Nat × Script .writes α)) : List (Script .writes α) :=
  turns.filterMap fun t => if t.1 = unit then some t.2.alone else none

/-! ## Workspaces with one table -/

namespace Workspace

/-- The units have these graphs, and all of them take their names from the one table. -/
structure Shares (w : Workspace) (others : Nat) (graphs : Nat → Graph) (t : Interner) : Prop where
  tables : w.tables = #[t]
  units : ∀ unit, w.units[unit]? = if unit ≤ others then some ⟨graphs unit, 0⟩ else none

variable {w : Workspace} {others unit : Nat} {graphs : Nat → Graph} {t : Interner}

theorem Shares.context?_eq (h : w.Shares others graphs t) (unit : Nat) :
    w.context? unit = if unit ≤ others then some ⟨graphs unit, t⟩ else none := by
  rw [context?, h.units]
  split <;> simp [h.tables]

/-- A unit that is written keeps to the table, and the others find the table written. -/
theorem Shares.put (h : w.Shares others graphs t) (hunit : unit ≤ others) (c : Context) :
    (w.put unit c).Shares others (Function.update graphs unit c.graph) c.names := by
  have hu : w.units[unit]? = some ⟨graphs unit, 0⟩ := by rw [h.units, if_pos hunit]
  have hput : w.put unit c = ⟨w.units.set! unit ⟨c.graph, 0⟩, #[c.names]⟩ := by
    simp [Workspace.put, hu, h.tables]
  rw [hput]
  refine ⟨rfl, fun other => ?_⟩
  have hlt : unit < w.units.size := (Array.getElem?_eq_some_iff.mp hu).1
  by_cases ho : other = unit
  · subst ho
    simp [hunit, hlt]
  · simp [Ne.symm ho, ho, h.units]

theorem shares_sharing (others : Nat) :
    (sharing others).Shares others (fun _ => .empty) .fresh := by
  induction others with
  | zero =>
    refine ⟨rfl, fun unit => ?_⟩
    cases unit <;> simp [sharing, fresh]
  | succ others ih =>
    have hsize : (sharing others).units.size = others + 1 := by
      have hlast : others < (sharing others).units.size := by
        have hu := ih.units others
        rw [if_pos (Nat.le_refl _)] at hu
        exact (Array.getElem?_eq_some_iff.mp hu).1
      have hnext : (sharing others).units.size ≤ others + 1 := by
        have hu := ih.units (others + 1)
        rw [if_neg (by omega)] at hu
        exact Array.getElem?_eq_none_iff.mp hu
      omega
    have hshare : sharing (others + 1) =
        { sharing others with units := (sharing others).units.push ⟨.empty, 0⟩ } := by
      simp [sharing, addUnit, ih.units]
    rw [hshare]
    refine ⟨ih.tables, fun unit => ?_⟩
    rw [Array.getElem?_push, ih.units, hsize]
    grind

end Workspace

/-! ## One unit among others -/

theorem Client.runAll_concat (scripts : List (Script .writes α)) (script : Script .writes α) :
    ∀ d : Client, d.runAll (scripts ++ [script]) =
      ((d.runAll scripts).1 ++ [(script.eval (d.runAll scripts).2).1],
        (script.eval (d.runAll scripts).2).2) := by
  induction scripts with
  | nil => exact fun d => rfl
  | cons first rest ih =>
    intro d
    simp only [List.cons_append, runAll, ih]

namespace Session

variable {s : Session α} {others unit : Nat} {graphs : Nat → Graph} {t : Interner}

theorem turn_eq (h : s.workspace.Shares others graphs t) (hunit : unit ≤ others)
    {script : Script .writes α} {result : α} {d : Client}
    (heval : script.eval ⟨⟨graphs unit, t⟩, s.hands unit⟩ = (result, d)) :
    s.turn (unit, script) = ⟨s.workspace.put unit d.context, Function.update s.hands unit d.hand,
      s.log ++ [(unit, result)]⟩ := by
  simp [turn, Workspace.update, h.context?_eq, hunit, heval]

theorem turn_of_lt (h : s.workspace.Shares others graphs t) (script : Script .writes α)
    (hunit : others < unit) : s.turn (unit, script) = s := by
  simp [turn, Workspace.update, h.context?_eq, Nat.not_le_of_lt hunit]

/-- The client of the unit has got from its scripts what it would have got alone, and it sees what
it would see, unless the shared table is full. -/
def Tracks (s : Session α) (others unit : Nat) (own : List (Script .writes α)) : Prop :=
  ∃ graphs t, s.workspace.Shares others graphs t
    ∧ (t.Full ∨ (s.results unit = (Client.fresh.runAll own).1
      ∧ Client.Twins ⟨⟨graphs unit, t⟩, s.hands unit⟩ (Client.fresh.runAll own).2))

theorem tracks_turn {own : List (Script .writes α)} (hunit : unit ≤ others)
    (h : s.Tracks others unit own) (turn : Nat × Script .writes α) :
    (s.turn turn).Tracks others unit (own ++ ownScripts unit [turn]) := by
  obtain ⟨graphs, t, hshares, htracks⟩ := h
  obtain ⟨who, script⟩ := turn
  by_cases hwho : who ≤ others
  · have hle := script.below_eval ⟨⟨graphs who, t⟩, s.hands who⟩
    have halike := script.alike_eval (d := ⟨⟨graphs who, t⟩, s.hands who⟩)
      (e := (Client.fresh.runAll own).2)
    cases heval : script.eval ⟨⟨graphs who, t⟩, s.hands who⟩ with
    | mk result d =>
      rw [heval] at hle halike
      rw [turn_eq hshares hwho heval]
      refine ⟨_, _, hshares.put hwho _, ?_⟩
      rcases htracks with hfull | ⟨hresults, htwins⟩
      · exact .inl (hfull.mono hle)
      by_cases hself : who = unit
      · -- the unit's own turn goes as it would alone
        subst hself
        refine (halike htwins).imp (fun hfull => hfull) fun hboth => ?_
        have hown : ownScripts who [(who, script)] = [script.alone] := by simp [ownScripts]
        rw [hown, Client.runAll_concat, ← hresults, ← hboth.1]
        dsimp only
        rw [Function.update_self, Function.update_self]
        refine ⟨?_, hboth.2⟩
        simp [results]
      · -- in the turn of another unit nothing but the table changes
        have hown : ownScripts unit [(who, script)] = [] := by simp [ownScripts, hself]
        rw [hown, List.append_nil, ← hresults]
        dsimp only
        rw [Function.update_of_ne (Ne.symm hself), Function.update_of_ne (Ne.symm hself)]
        refine .inr ⟨?_, htwins.grow hle⟩
        simp [results, hself]
  · -- there is no such unit
    have hown : ownScripts unit [(who, script)] = [] := by
      simp only [ownScripts, List.filterMap_cons, List.filterMap_nil]
      rw [if_neg (by omega)]
    rw [turn_of_lt hshares script (by omega), hown, List.append_nil]
    exact ⟨graphs, t, hshares, htracks⟩

theorem tracks_run (hunit : unit ≤ others) (turns : List (Nat × Script .writes α)) :
    ∀ {s : Session α} {own : List (Script .writes α)}, s.Tracks others unit own →
      (s.run turns).Tracks others unit (own ++ ownScripts unit turns) := by
  induction turns with
  | nil => exact fun h => by rwa [ownScripts, List.filterMap_nil, List.append_nil]
  | cons turn rest ih =>
    intro s own h
    have hown : ownScripts unit (turn :: rest) = ownScripts unit [turn] ++ ownScripts unit rest :=
      List.filterMap_append (l := [turn])
    rw [hown, ← List.append_assoc]
    exact ih (tracks_turn hunit h turn)

theorem tracks_start (others unit : Nat) : (start others : Session α).Tracks others unit [] := by
  refine ⟨_, _, Workspace.shares_sharing others, .inr ⟨rfl, ⟨?_, Graph.like_empty⟩, .nil⟩⟩
  have hsound : Interner.fresh.Sound := Interner.sound_history []
  exact ⟨hsound, hsound, fun s n' hn' => ⟨n', hn'⟩⟩

end Session

/-- **Units that share a table do not notice each other.** Of any number of units that share one
table, each gets from its scripts what it would get if it were alone and its table were its own, and
its names have the same texts and are equal to each other where they would be; provided that the
shared table still has room in every shard when all is done. -/
theorem units_independent (others : Nat) (turns : List (Nat × Script .writes α)) (unit : Nat)
    (hunit : unit ≤ others)
    (hroom : ∀ t ∈ ((Session.start others).run turns).workspace.tables, ¬ t.Full) :
    ((Session.start others).run turns).results unit =
        (Client.fresh.runAll (ownScripts unit turns)).1
      ∧ ∃ d, ((Session.start others).run turns).client? unit = some d
        ∧ d.spelling = (Client.fresh.runAll (ownScripts unit turns)).2.spelling := by
  obtain ⟨graphs, t, hshares, htracks⟩ :=
    Session.tracks_run hunit turns (Session.tracks_start others unit)
  rw [List.nil_append] at htracks
  have hfull : ¬ t.Full := hroom t (by rw [hshares.tables]; exact Array.mem_singleton.mpr rfl)
  obtain ⟨hresults, htwins⟩ := htracks.resolve_left hfull
  refine ⟨hresults, ⟨⟨graphs unit, t⟩, _⟩, ?_, htwins.spelling⟩
  rw [Session.client?, hshares.context?_eq, if_pos hunit, Option.map_some]

/-- Names a type by a text, wraps it, and goes over the tree to put `bool` in place of that name. -/
def nameToBool : Script .writes String :=
  .order ⟨.make (.build (.node (.type (.name (.text "q"))) [])) .dummy,
    (fun _ h => nomatch h), none⟩ fun _ =>
  .order ⟨.make (.build (.node (.qualifiedType .none) [.owned ⟨0⟩])) .dummy,
    (fun _ h => nomatch h), none⟩ fun _ =>
  .rewrite (ε := Unit) 2 ⟨1⟩
    (fun id _ => .ask (.kind id) fun answer =>
      match answer with
      | .kind (.ok (some (.type (.name seen)))) =>
        if seen.text = "q" then
          .order ⟨.make (.build (.node (.type .bool) [])) .dummy, (fun _ h => nomatch h), none⟩
            fun _ => .done (.ok (.replace (.owned ⟨2⟩)), ())
        else .done (.ok .prune, ())
      | _ => .done (.ok .descend, ()))
    () fun _ _ =>
  .ask (.dump ⟨1⟩) fun answer =>
    match answer with
    | .fact (.text s) => .done s
    | _ => .done ""

/-- Another unit takes the slot that the text `q` would have had. -/
def neighbours : List (Nat × Script .writes String) :=
  [(0, .intern "a" fun _ => .done "a"), (1, nameToBool)]

/-- The unit has another name for the text than it would have alone, and nothing else is
different. -/
theorem units_independent_neighbours :
    (∀ t ∈ ((Session.start 1).run neighbours).workspace.tables, ¬ t.Full)
      ∧ ((Session.start 1).run neighbours).results 1 = ["#1 qualified-type\n  #2 type::Bool\n"]
      ∧ (Client.fresh.runAll (ownScripts 1 neighbours)).2.hand = [.ofParts 1 0]
      ∧ ∃ d, ((Session.start 1).run neighbours).client? 1 = some d ∧ d.hand = [.ofParts 1 1]
        ∧ d.spelling = [⟨"q", [true]⟩] := by
  have hroom : ∀ t ∈ ((Session.start 1).run neighbours).workspace.tables, ¬ t.Full := by
    decide +kernel
  have hanswers : (Client.fresh.runAll (ownScripts 1 neighbours)).1 =
      ["#1 qualified-type\n  #2 type::Bool\n"] := by decide +kernel
  have hspelling : (Client.fresh.runAll (ownScripts 1 neighbours)).2.spelling =
      [⟨"q", [true]⟩] := by decide +kernel
  have hhand : (((Session.start 1).run neighbours).client? 1).map Client.hand =
      some [.ofParts 1 1] := by decide +kernel
  obtain ⟨hresults, d, hd, hsame⟩ := units_independent 1 neighbours 1 (Nat.le_refl 1) hroom
  rw [hd, Option.map_some] at hhand
  exact ⟨hroom, hresults.trans hanswers, by decide +kernel, d, hd, Option.some.inj hhand,
    hsame.trans hspelling⟩

/-! ## A table without room -/

/-- Interns the texts, whatever comes of it. -/
def Script.internAll : List String → Script .writes Bool
  | [] => .done true
  | s :: rest => .intern s fun _ => internAll rest

theorem Script.names_internAll (texts : List String) : ∀ d : Client,
    ((internAll texts).eval d).2.context.names = d.context.names.holdAll texts := by
  induction texts with
  | nil => exact fun _ => rfl
  | cons s rest ih =>
    intro d
    have hnames : (tell d ((Command.intern s).run d.context)).2.context.names =
        d.context.names.hold s := by
      cases hcall : d.context.names.intern s <;>
        simp [Command.run, Build.intern, hcall, tell, bind, EStateM.bind, pure, EStateM.pure,
          Client.hear, Client.take, Interner.hold]
    simp only [internAll, eval]
    rw [ih, hnames]
    rfl

/-- Interns a text, and says whether there is a name for it. -/
def Script.askFor (s : String) : Script .writes Bool :=
  .intern s fun answer => .done answer.name?.isSome

theorem Script.askFor_of_full {d : Client} {s : String} {cause : InternError}
    (h : d.context.names.intern s = .error cause) : (askFor s).eval d = (false, d) := by
  simp [askFor, eval, Command.run, Build.intern, h, tell, bind, EStateM.bind, Answer.name?]

/-- One unit interns texts, and then another asks for one. -/
def crowding (texts : List String) (s : String) : List (Nat × Script .writes Bool) :=
  [(0, .internAll texts), (1, .askFor s)]

theorem results_crowding {texts : List String} {s : String} {cause : InternError}
    (h : (Interner.history texts).intern s = .error cause) :
    ((Session.start 1).run (crowding texts s)).results 1 = [false] := by
  have hshares : (Session.start 1 : Session Bool).workspace.Shares 1 (fun _ => .empty) .fresh :=
    Workspace.shares_sharing 1
  have hnames := Script.names_internAll texts ⟨⟨.empty, .fresh⟩, []⟩
  cases hfirst : (Script.internAll texts).eval ⟨⟨.empty, .fresh⟩, []⟩ with
  | mk result d =>
    rw [hfirst] at hnames
    -- the second unit finds the table as the first one has left it
    have hrefused : d.context.names.intern s = .error cause := by
      rw [hnames]
      exact h
    rw [Session.run, crowding, List.foldl_cons, List.foldl_cons, List.foldl_nil,
      Session.turn_eq hshares (Nat.zero_le 1) hfirst,
      Session.turn_eq (hshares.put (Nat.zero_le 1) d.context) (Nat.le_refl 1)
        (Script.askFor_of_full hrefused)]
    rfl

/-- The shared table may fill up: texts with the same beginning go to one shard, and when one unit
has filled it, another gets no name for a text that it would be given a name for alone. -/
theorem exists_unit_crowded_out :
    ¬ ∀ (others : Nat) (turns : List (Nat × Script .writes Bool)) (unit : Nat), unit ≤ others →
      ((Session.start others).run turns).results unit =
          (Client.fresh.runAll (ownScripts unit turns)).1
        ∧ ∃ d, ((Session.start others).run turns).client? unit = some d
          ∧ d.spelling = (Client.fresh.runAll (ownScripts unit turns)).2.spelling := by
  intro h
  let turns := crowding (Interner.lookalikes Name.slotCount) "aaaaaaaab"
  have hshared : ((Session.start 1).run turns).results 1 = [false] :=
    results_crowding Interner.intern_lookalike
  have hown : ownScripts 1 turns = [Script.askFor "aaaaaaaab"] := by
    simp [turns, crowding, ownScripts, Script.askFor, Script.alone]
  have halone : (Client.fresh.runAll [Script.askFor "aaaaaaaab"]).1 = [true] := by decide +kernel
  obtain ⟨hsame, _⟩ := h 1 turns 1 (Nat.le_refl 1)
  rw [hshared, hown, halone] at hsame
  exact absurd hsame (by simp)

end SyntaxGraph
