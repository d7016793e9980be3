import SymbolUsage.Proofs.Usage.Transparency

/-! The calls of a walk one by one: what a call makes of a node, and whether the walk goes on below
it. -/
namespace SymbolUsage

variable {σ : Type} {v : Visitor σ} {depth : Nat} {k : NodeKind} {n : Node k} {p : Progress σ}

namespace Call

/-- Whether the walk goes on below the node, unless the call ends it. -/
def outcome (c : Call) : Except Error Bool :=
  match c.answer with
  | .error e => .error e
  | .ok .proceed => .ok true
  | .ok .skipChildren => .ok false
  | .ok (.replace new) => (new.ofKind c.kind).map fun _ => true

/-- The node as it stands after the call: the replacement if one is offered that fits, and otherwise
what the visitor left. -/
def node (c : Call) : Node c.kind :=
  match c.answer with
  | .ok (.replace new) => (new.ofKind c.kind).toOption.getD c.left
  | _ => c.left

end Call

/-- The call that a visitor gets for a node. -/
abbrev Visitor.call (v : Visitor σ) (k : NodeKind) (n : Node k) (s : σ) : Call where
  kind := k
  left := (v.enter k n s).1.1
  answer := (v.enter k n s).2

theorem walk_eq_call (hp : p.stop = none) :
    walk v (depth + 1) k n p =
      let s := (v.enter k n p.state).1.2
      match (v.call k n p.state).outcome with
      | .error e => ((v.call k n p.state).node, { state := s, stop := some (.failed e) })
      | .ok false => ((v.call k n p.state).node, { state := s })
      | .ok true => Node.descend (walk v depth) k (v.call k n p.state).node { state := s } := by
  rw [walk_succ hp]
  simp only [Call.outcome, Call.node, Visitor.call]
  rcases v.enter k n p.state with ⟨⟨n', s⟩, answer⟩
  cases answer with
  | error e => rfl
  | ok visit =>
    cases visit with
    | proceed => rfl
    | skipChildren => rfl
    | replace new =>
      dsimp only
      cases new.ofKind k <;> rfl

theorem once_node (hv : Proceeds v) (n : Node k) (s : σ) :
    (once v k n { state := s }).1 = (v.call k n s).node := by
  rw [once, if_neg (by simp)]
  simp only [Call.node, Visitor.call]
  rcases he : v.enter k n s with ⟨⟨n', s'⟩, answer⟩
  cases answer with
  | error e => rfl
  | ok visit =>
    obtain rfl := hv k n s visit (by rw [he])
    rfl

/-- `I` is kept by each call for a node with `Q`, which the children the node then has must have
too. So a whole walk keeps it. -/
theorem walk_invariant {Q : AnyNode → Prop} {I : σ → Prop}
    (h : ∀ k n s, Q ⟨k, n⟩ → I s → I (v.enter k n s).1.2 ∧
      ∀ c ∈ AnyNode.children ⟨k, (v.call k n s).node⟩, Q c)
    (depth : Nat) (k : NodeKind) (n : Node k) (p : Progress σ) (hn : Q ⟨k, n⟩) (hp : I p.state) :
    I (walk v depth k n p).2.state := by
  induction depth generalizing k n p with
  | zero => exact hp
  | succ depth ih =>
    cases hs : p.stop with
    | some stop =>
      rw [walk_of_stop v (by simp [hs])]
      exact hp
    | none =>
      obtain ⟨hcall, hchildren⟩ := h k n p.state hn hp
      rw [walk_eq_call hs]
      dsimp only
      split
      next => exact hcall
      next => exact hcall
      next =>
        have hbelow := visitList_invariant (I := fun p => I p.state)
          (d := Action.any (walk v depth)) (p := { state := (v.enter k n p.state).1.2 })
          (fun c hc p hp => ih c.kind c.node p (hchildren c hc) hp) hcall
        rw [Node.visitList_children] at hbelow
        exact hbelow

/-- If nothing stopped it, `d` has taken the state on, by `R`, for what is held, by `c`, in what it
leaves. -/
def Yields {α β : Type} (R : List β → σ → σ → Prop) (c : α → List β)
    (d : α → StateM (Progress σ) α) : Prop :=
  ∀ a p, (d a p).2.stop = none → p.stop = none ∧ R (c (d a p).1) p.state (d a p).2.state

theorem Yields.list {α β : Type} {R : List β → σ → σ → Prop} {c : α → List β}
    {d : α → StateM (Progress σ) α} (hnil : ∀ s, R [] s s)
    (happend : ∀ {bs bs' s t u}, R bs s t → R bs' t u → R (bs ++ bs') s u) (h : Yields R c d) :
    Yields R (List.flatMap c) (visitList d) := by
  intro as
  induction as with
  | nil =>
    intro p hp
    exact ⟨hp, hnil p.state⟩
  | cons a as ih =>
    intro p hp
    simp only [visitList_cons] at hp ⊢
    obtain ⟨hstop, ht⟩ := ih (d a p).2 hp
    obtain ⟨hstop, ha⟩ := h a p hstop
    exact ⟨hstop, happend ha ht⟩

end SymbolUsage
