import SymbolUsage.Tree.Descend

/-! Walking a tree with a visitor, each node before its children.

The visitor may edit a node in place, have it replaced, or keep the walk out of it. What it has
done so far stands when a walk stops early. -/
namespace SymbolUsage

/-- What to do after a node has been entered. -/
inductive Visit where
  | proceed
  | skipChildren
  /-- Go on below the new node, which is not entered itself. -/
  | replace (new : AnyNode)

structure Visitor (σ : Type) where
  /-- Called once, before the first node. A tree in its answer is walked in place of the edited
  one. -/
  before : Tree → σ → (Tree × σ) × Except Error (Option Tree) := fun t s => ((t, s), .ok none)
  enter : (k : NodeKind) → Node k → σ → (Node k × σ) × Except Error Visit :=
    fun _ n s => ((n, s), .ok .proceed)

/-- Why a walk stopped before the end. -/
inductive Stop where
  | failed (e : Error)
  /-- The tree grew deeper than the walk may go. -/
  | tooDeep
deriving DecidableEq

structure Progress (σ : Type) where
  state : σ
  stop : Option Stop := none

variable {σ : Type} (v : Visitor σ)

/-- Walks a node, going down at most so many levels. After a stop, nodes stay as they are. -/
def walk : Nat → (k : NodeKind) → Node k → StateM (Progress σ) (Node k)
  | 0, _, n => fun p => (n, { p with stop := some (p.stop.getD .tooDeep) })
  | depth + 1, k, n => fun p =>
    if p.stop.isSome then (n, p)
    else
      match v.enter k n p.state with
      | ((n, s), .error e) => (n, { state := s, stop := some (.failed e) })
      | ((n, s), .ok .proceed) => Node.descend (walk depth) k n { state := s }
      | ((n, s), .ok .skipChildren) => (n, { state := s })
      | ((n, s), .ok (.replace new)) =>
        match new.ofKind k with
        | .ok n => Node.descend (walk depth) k n { state := s }
        | .error e => (n, { state := s, stop := some (.failed e) })

theorem walk_of_stop {p : Progress σ} (h : p.stop.isSome) (depth : Nat) (k : NodeKind)
    (n : Node k) : walk v depth k n p = (n, p) := by
  obtain ⟨s, stop⟩ := p
  obtain ⟨e, rfl⟩ := Option.isSome_iff_exists.mp h
  cases depth <;> rfl

/-- A walk's results: the tree as it was left, the visitor's state, and why it stopped if it did. -/
structure Walked (σ : Type) where
  tree : Tree
  state : σ
  stop : Option Stop

def traverse (depth : Nat) (t : Tree) (s : σ) : Walked σ :=
  match v.before t s with
  | ((t, s), .error e) => { tree := t, state := s, stop := some (.failed e) }
  | ((t, s), .ok replacement) =>
    let (t, p) := visitStmts (walk v depth) (replacement.getD t) { state := s }
    { tree := t, state := p.state, stop := p.stop }

end SymbolUsage
