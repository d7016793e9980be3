import SymbolUsage.Proofs.Usage.Positions
import SymbolUsage.Proofs.Walk.Calls
import SymbolUsage.Tree.Basic

/-! A successful session has collected exactly what is used in the tree it leaves. -/
namespace SymbolUsage

variable {σ α : Type} {v : Visitor σ} {k : NodeKind}

theorem UsageSet.getElem?_recordAll (u : UsageSet) (names : List Name) (key : String) :
    (u.recordAll names)[key]? = ((names.filter (·.display = key)).getLast?).or u[key]? := by
  induction names generalizing u with
  | nil => rfl
  | cons name names ih =>
    change ((u.record name).recordAll names)[key]? = _
    rw [ih, UsageSet.getElem?_record]
    by_cases hk : name.display = key
    · rw [List.filter_cons_of_pos (by simpa using hk), List.getLast?_cons, if_pos hk]
      cases (names.filter (·.display = key)).getLast? <;> rfl
    · rw [List.filter_cons_of_neg (by simpa using hk), if_neg hk]

theorem UsageSet.of_getElem?_recordAll {u : UsageSet} {names : List Name} {key : String}
    {name : Name} (h : (u.recordAll names)[key]? = some name) :
    name ∈ names ∧ name.display = key ∨ u[key]? = some name := by
  rw [UsageSet.getElem?_recordAll, Option.or_eq_some_iff] at h
  rcases h with h | ⟨-, h⟩
  · have hmem := List.mem_of_getLast? h
    rw [List.mem_filter, decide_eq_true_iff] at hmem
    exact Or.inl hmem
  · exact Or.inr h

theorem usedBy_own (k : NodeKind) (n : Node k) : usedBy k (Node.own k n) = usedBy k n := by
  cases k with
  | stmt => cases n <;> rfl
  | expr =>
    cases n with
    | call callee args => cases callee <;> rfl
    | staticCall cls name args => cases cls <;> rfl
    | staticPropertyFetch cls name => cases cls <;> rfl
    | classConstFetch cls name => cases cls <;> rfl
    | new cls args => cases cls <;> rfl
    | instanceOf subject cls => cases cls <;> rfl
    | _ => rfl
  | catchClause => rfl
  | param => rfl
  | anonymousClass => rfl

/-- What goes on below a node does not change what it uses by itself. -/
theorem usedBy_descend {P : Type} (f : Action (StateM P)) (n : Node k) (p : P) :
    usedBy k (Node.descend f k n p).1 = usedBy k n := by
  rw [← usedBy_own k (Node.descend f k n p).1, Node.own_descend, usedBy_own]

/-- If nothing stopped it, `d` has recorded what is used, by `u`, in what it leaves. -/
def Collects (u : α → List Name) (d : α → StateM (Progress (σ × UsageSet)) α) : Prop :=
  ∀ a p, (d a p).2.stop = none →
    p.stop = none ∧ (d a p).2.state.2 = p.state.2.recordAll (u (d a p).1)

theorem Collects.list {u : α → List Name} {d : α → StateM (Progress (σ × UsageSet)) α}
    (h : Collects u d) : Collects (List.flatMap u) (visitList d) := by
  have hyields : Yields (fun names (s s' : σ × UsageSet) => s'.2 = s.2.recordAll names) u d := h
  refine hyields.list (fun _ => rfl) ?_
  intro names names' s s' s'' hs' hs''
  rw [hs'', hs', UsageSet.recordAll_append]

theorem Collects.any {f : Action (StateM (Progress (σ × UsageSet)))}
    (h : ∀ k, Collects (fun n => AnyNode.usages ⟨k, n⟩) (f k)) : Collects AnyNode.usages f.any :=
  fun n => h n.kind n.node

/-- A call records the node's own names, as they are after it. -/
theorem once_collects (v : Visitor σ) (k : NodeKind) :
    Collects (usedBy k) (once (collecting v) k) := by
  intro n p h
  cases hp : p.stop with
  | some stop =>
    rw [once_of_stop (by simp [hp]), hp] at h
    cases h
  | none =>
    refine ⟨rfl, ?_⟩
    rw [once, hp, if_neg (by simp)] at h ⊢
    rcases he : v.enter k n p.state.1 with ⟨⟨n', s'⟩, answer⟩
    cases answer with
    | error e =>
      rw [collecting_enter_error he] at h
      cases h
    | ok visit => rw [collecting_enter_ok he]

/-- The induction is over the depth of the walk. What a call has left of a node's own names stays
while its children are walked. -/
theorem walk_collects (hv : Proceeds v) (depth : Nat) (k : NodeKind) :
    Collects (fun n => AnyNode.usages ⟨k, n⟩) (walk (collecting v) depth k) := by
  induction depth generalizing k with
  | zero =>
    intro n p h
    simp [walk] at h
  | succ depth ih =>
    intro n p h
    rw [walk_eq_once (collecting_proceeds hv)] at h ⊢
    have hbelow := (Collects.any ih).list (AnyNode.children ⟨k, (once (collecting v) k n p).1⟩)
      (once (collecting v) k n p).2
    rw [Node.visitList_children] at hbelow
    obtain ⟨hstop, hchildren⟩ := hbelow h
    obtain ⟨hstop, hown⟩ := once_collects v k n p hstop
    refine ⟨hstop, ?_⟩
    dsimp only
    rw [hchildren, hown, AnyNode.usages_eq, UsageSet.recordAll_append, usedBy_descend]

theorem collect_eq (o : Options) (t : Tree) :
    collect o t =
      let walked := visitStmts (walk (collecting (resolver o)) t.size) t
        { state := (Scope.entering none, ∅) }
      { tree := walked.1, state := walked.2.state, stop := walked.2.stop } := rfl

theorem collect_state (o : Options) (t : Tree) (h : (collect o t).stop = none) :
    (collect o t).state.2 = UsageSet.recordAll ∅ (collect o t).tree.usages := by
  rw [collect_eq] at h ⊢
  have hc := (walk_collects (resolver_proceeds o) t.size .stmt).list t
    { state := (Scope.entering none, ∅) }
  rw [Tree.usages_eq, List.flatMap_map]
  exact (hc h).2

/-- The keys are the texts of the used names, and under each is the last name with that text, in
the order of the nodes. -/
theorem collect_exact (o : Options) (t : Tree) (h : (collect o t).stop = none) (key : String) :
    let names := (collect o t).tree.usages
    let used := (collect o t).state.2
    (key ∈ used ↔ key ∈ names.map Name.display) ∧
      used[key]? = (names.filter (·.display = key)).getLast? ∧
      names = (collect o t).tree.preorder.flatMap fun n => usedBy n.kind n.node := by
  have hget : (collect o t).state.2[key]? =
      ((collect o t).tree.usages.filter (·.display = key)).getLast? := by
    rw [collect_state o t h, UsageSet.getElem?_recordAll]
    simp
  refine ⟨?_, hget, Tree.usages_eq_preorder _⟩
  rw [Std.ExtTreeMap.mem_iff_isSome_getElem?, hget]
  simp

/-- A class whose method has a constant as a default and a new object inside a closure. -/
def nestedSample : Tree :=
  let limit : Param :=
    { Param.plain "limit" none with default := some (.constant "\\LIMIT") }
  let closure := Expr.closure [] [] none [.ret (some (.newObject "Task" []))] false
  [.namespaceDecl (some (Name.parse "App"))
    [.useImport .unspecified [{ name := Name.parse "Lib\\Base", alias? := none }],
      .classDecl
        { name := some "Job", namespaced := none, parent := some (Name.parse "Base"),
          interfaces := [],
          body := [.method "run" [limit] none (some [.expression closure])] }]]

theorem collect_exact_nestedSample :
    (collect {} nestedSample).stop = none ∧ "App\\Task" ∈ (collect {} nestedSample).state.2 := by
  have h : (collect {} nestedSample).stop = none := by decide +kernel
  have hmem : "App\\Task" ∈ (collect {} nestedSample).tree.usages.map Name.display := by
    decide +kernel
  exact ⟨h, (collect_exact {} nestedSample h "App\\Task").1.mpr hmem⟩

end SymbolUsage
