import SyntaxGraph.Proofs.Names
import SyntaxGraph.Proofs.Twins
import SyntaxGraph.Workspace

/-!
# Clients

A client works on a compilation unit. It has no words of its own: names it gets
from the unit, by asking for a text or by looking at a node, and it can do no more
with a name than read its text, compare it with the names that it has, and hand
it back. So a client is a script whose next step depends on texts and on
comparisons (`Seen`), never on a word.

A script that only reads may still intern texts. The predicate of a search is
such a script. The rewriter of a pass is one that may do whatever a client may,
which includes another pass. If the table of names is shared, others may be at
work in the middle of all that: a script pauses where they intern texts.
-/

namespace SyntaxGraph

/-! ## What a client knows -/

/-- What a client sees of a name: its text, and which of the names at hand it is. -/
structure Seen where
  text : String
  same : List Bool
  deriving DecidableEq, Repr

/-- A unit with the names that its client has. -/
structure Client where
  context : Context
  hand : List Name

/-- A fact about a unit in which no name occurs. -/
inductive Fact where
  | made (id : NodeId)
  | done
  | replaced (old : Edge)
  | refused (cause : BuildError)
  | count (n : Nat)
  | place (node : Option (Span × List Edge × Option NodeId × Bool))
  | text (s : String)
  | verdict (answer : Except Fault Bool)
  | nodes (answer : Except Fault (List NodeId))
  | type (answer : Except Fault (Option NodeId))

/-- What a client is told; `ν` stands for names. -/
inductive Answer (ν : Type) where
  | name (n : ν)
  | kind (answer : Except Fault (Option (Kind ν)))
  | fact (f : Fact)

namespace Answer

variable {ν μ : Type}

/-- The answer with the name in it, if there is one, changed by `f`. -/
def map (f : ν → μ) : Answer ν → Answer μ
  | name n => name (f n)
  | kind (.ok k?) => kind (.ok (k?.map (Kind.map f)))
  | kind (.error fault) => kind (.error fault)
  | fact what => fact what

/-- The name in an answer. -/
def name? : Answer ν → Option ν
  | name n => some n
  | kind (.ok (some k)) => k.name?
  | _ => none

end Answer

/-- What a command replies to its client. -/
def Reply.answer : Reply → Answer Name
  | made id => .fact (.made id)
  | named n => .name n
  | done => .fact .done
  | replaced old => .fact (.replaced old)

namespace Client

/-- The client of a fresh unit. -/
def fresh : Client := ⟨.fresh, []⟩

/-- How the client sees a name. -/
def see (d : Client) (n : Name) : Seen := ⟨d.context.names.lookup n, d.hand.map fun m => m == n⟩

/-- The client takes a name. -/
def take (d : Client) (n? : Option Name) : Client := { d with hand := d.hand ++ n?.toList }

/-- The client is told something, and has the name in it from now on. -/
def hear (d : Client) (a : Answer Name) : Answer Seen × Client := (a.map d.see, d.take a.name?)

/-- The client is shown a kind. -/
def look (d : Client) (k : Kind Name) : Kind Seen × Client := (k.map d.see, d.take k.name?)

/-- The others that share the table intern texts. -/
def wait (d : Client) (texts : List String) : Client :=
  { d with context := { d.context with names := d.context.names.holdAll texts } }

/-- The names at hand, as the client sees them. -/
def spelling (d : Client) : List Seen := d.hand.map d.see

end Client

/-! ## What a client may ask for -/

/-- A question about a unit. -/
inductive Question where
  | size
  | kind (id : NodeId)
  | place (id : NodeId)
  | describe (id : NodeId)
  | dump (id : NodeId)
  | isEqual (a b : NodeId)
  | isResolved (id : NodeId)
  | unresolvedNodes (id : NodeId)
  | typeOf (id : NodeId)
  | valueType (id : NodeId)
  | dedup (ids : List NodeId)

/-- The answer to a question. -/
def Question.answer (c : Context) : Question → Answer Name
  | size => .fact (.count c.graph.size)
  | kind id => .kind (.ok (c.graph.kind? id))
  | place id =>
    .fact (.place ((c.graph.node? id).map fun n => (n.span, n.children, n.parent, n.frozen)))
  | describe id => .fact (.text (c.describe id))
  | dump id => .fact (.text (c.dump id))
  | isEqual a b => .fact (.verdict (c.graph.isEqual a b))
  | isResolved id => .fact (.verdict (c.graph.isResolved id))
  | unresolvedNodes id => .fact (.nodes (c.graph.unresolvedNodes id))
  | typeOf id => .fact (.type (c.graph.typeOf id))
  | valueType id => .kind ((c.graph.valueType id).map (Option.map .type))
  | dedup ids => .fact (.nodes (c.graph.dedup ids))

/-- The label in a command, if there is one. -/
def Command.label? : Command → Option Label
  | .make (.begin kind) _ => kind.name?
  | .make (.build (.node kind _)) _ => kind.name?
  | .make (.build (.typed kind _ _ _)) _ => kind.name?
  | _ => none

/-- The command with the label in it changed by `f`. -/
def Command.relabel (f : Label → Label) : Command → Command
  | .make (.begin kind) span => .make (.begin (kind.map f)) span
  | .make (.build (.node kind children)) span => .make (.build (.node (kind.map f) children)) span
  | .make (.build (.typed kind qualifiers wrapped children)) span =>
    .make (.build (.typed (kind.map f) qualifiers wrapped children)) span
  | cmd => cmd

/-- A command as a client gives it. -/
structure Order where
  command : Command
  /-- The label is a text, for a client has no words of its own. -/
  spelled : ∀ n, command.label? ≠ some (.name n)
  /-- Which of the names at hand is to be used in place of the text, if one is. -/
  held : Option Nat

/-- The command that the order stands for. -/
def Order.resolve (o : Order) (hand : List Name) : Command :=
  match o.held.bind (hand[·]?) with
  | some n => o.command.relabel fun _ => .name n
  | none => o.command

/-! ## Scripts -/

/-- Whether a script may change the graph. Texts may be interned by all of them. -/
inductive Access where
  | reads
  | writes

/-- What a client does. -/
inductive Script : Access → Type → Type 1 where
  /-- Ends with a result. -/
  | done {access : Access} {α : Type} (result : α) : Script access α
  /-- Interns a text. -/
  | intern {access : Access} {α : Type} (text : String) (next : Answer Seen → Script access α) :
    Script access α
  /-- Pauses, while the other units that share the table intern texts. -/
  | pause {access : Access} {α : Type} (texts : List String) (next : Script access α) :
    Script access α
  /-- Asks a question. -/
  | ask {access : Access} {α : Type} (question : Question) (next : Answer Seen → Script access α) :
    Script access α
  /-- Searches a tree. The predicate has a memory. -/
  | collect {access : Access} {α σ : Type} (root : NodeId)
    (predicate : Kind Seen → σ → Script .reads (Bool × σ)) (memory : σ)
    (next : Except Fault (List NodeId × σ) → Script access α) : Script access α
  /-- Gives a command. -/
  | order {α : Type} (o : Order) (next : Answer Seen → Script .writes α) : Script .writes α
  /-- Goes over a tree with a rewriter, which has a memory and may give up. -/
  | rewrite {α σ ε : Type} (depth : Nat) (root : NodeId)
    (rewriter : NodeId → σ → Script .writes (Except ε Action × σ)) (memory : σ)
    (next : Except (PassError ε) PassOutcome → σ → Script .writes α) : Script .writes α

namespace Script

/-- What running a command comes to for its client. -/
def tell (d : Client) : EStateM.Result BuildError Context Reply → Answer Seen × Client
  | .ok reply c => Client.hear { d with context := c } reply.answer
  | .error cause c => (.fact (.refused cause), { d with context := c })

/-- A predicate on what a client sees, as one on kinds. -/
def search {σ : Type} (predicate : Kind Seen → σ → Client → (Bool × σ) × Client) :
    Graph.Search (Client × σ) := fun k s =>
  let (seen, d) := s.1.look k
  let ((hit, memory), d) := predicate seen s.2 d
  (hit, d, memory)

/-- A rewriter of a client, as a pass. -/
def pass {σ ε : Type} (rewriter : NodeId → σ → Client → (Except ε Action × σ) × Client) :
    Pass (List Name × σ) ε := fun id s =>
  let ((answer, memory), d) := rewriter id s.memory.2 ⟨s.context, s.memory.1⟩
  match answer with
  | .ok action => .ok action ⟨d.context, d.hand, memory⟩
  | .error cause => .error (.gaveUp cause) ⟨d.context, d.hand, memory⟩

/-- What a pass comes to for its client. -/
def ended {σ ε : Type} : EStateM.Result (PassError ε) (PassState (List Name × σ)) PassOutcome →
    (Except (PassError ε) PassOutcome × σ) × Client
  | .ok outcome s => ((.ok outcome, s.memory.2), ⟨s.context, s.memory.1⟩)
  | .error cause s => ((.error cause, s.memory.2), ⟨s.context, s.memory.1⟩)

/-- What the script comes to, and what becomes of the unit. -/
def eval {access : Access} {α : Type} : Script access α → Client → α × Client
  | done result, d => (result, d)
  | intern text next, d =>
    let (seen, d) := tell d ((Command.intern text).run d.context)
    (next seen).eval d
  | pause texts next, d => next.eval (d.wait texts)
  | ask question next, d =>
    let (seen, d) := d.hear (question.answer d.context)
    (next seen).eval d
  | collect root predicate memory next, d =>
    match d.context.graph.collect root (search fun k m => (predicate k m).eval) (d, memory) with
    | .ok (found, d, memory) => (next (.ok (found, memory))).eval d
    | .error fault => (next (.error fault)).eval d
  | order o next, d =>
    let (seen, d) := tell d ((o.resolve d.hand).run d.context)
    (next seen).eval d
  | rewrite depth root rewriter memory next, d =>
    let ((outcome, memory), d) :=
      ended ((pass fun id m => (rewriter id m).eval).run depth root ⟨d.context, d.hand, memory⟩)
    (next outcome memory).eval d

/-- The same script where there are no others: nothing happens while it pauses. -/
def alone {access : Access} {α : Type} : Script access α → Script access α
  | done result => done result
  | intern text next => intern text fun seen => (next seen).alone
  | pause _ next => next.alone
  | ask question next => ask question fun seen => (next seen).alone
  | collect root predicate memory next =>
    collect root (fun k m => (predicate k m).alone) memory fun found => (next found).alone
  | order o next => order o fun seen => (next seen).alone
  | rewrite depth root rewriter memory next =>
    rewrite depth root (fun id m => (rewriter id m).alone) memory fun r m => (next r m).alone

end Script

end SyntaxGraph
