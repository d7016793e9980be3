import SymbolUsage.Proofs.Usage.Desugaring
import SymbolUsage.Proofs.Usage.Separation

/-! The order of the statements of a namespace matters only where there are imports. -/
namespace SymbolUsage

variable {o : Options} {s : Scope} {u : UsageSet} {n : AnyNode} {events : List Event}
variable {bs : List Batch} {ns : Option Name} {imports body body' : List Stmt}

/-- Namespaces and imports. -/
def AnyNode.changesScope : AnyNode → Bool
  | ⟨.stmt, .namespaceDecl ..⟩ => true
  | n => n.isImport

theorem scoping_of_not_changesScope (h : ¬ n.changesScope) : n.scoping = [] := by
  rw [List.eq_nil_iff_forall_not_mem]
  intro event hevent
  rcases AnyNode.mem_scoping hevent with ⟨ns, body, rfl, -⟩ | ⟨himport, -⟩
  · exact h rfl
  · refine h ?_
    unfold AnyNode.changesScope
    split
    · rfl
    · exact himport

/-- Nothing but slots is met, so all is resolved in one scope. -/
def Batch.Still (b : Batch) : Prop := ∀ event ∈ b.events, event.slot?.isSome

theorem batch_still (h : ¬ n.changesScope) : n.batch.Still := by
  intro event hevent
  have hevents : n.batch.events = n.slots.map Event.slot := by
    rw [AnyNode.batch, AnyNode.events, scoping_of_not_changesScope h, List.nil_append]
  rw [hevents] at hevent
  obtain ⟨x, -, rfl⟩ := List.mem_map.mp hevent
  rfl

theorem Tree.batches_still {t : Tree} (h : ∀ n ∈ t.preorder, ¬ n.changesScope) :
    ∀ b ∈ t.batches, b.Still := by
  intro b hb
  obtain ⟨n, hn, rfl⟩ := List.mem_map.mp hb
  exact batch_still (h n hn)

theorem replay_scope_of_slots (h : ∀ event ∈ events, event.slot?.isSome) :
    (replay o s events).scope = s := by
  induction events with
  | nil => rfl
  | cons event events ih =>
    have hrest := ih fun event hevent => h event (List.mem_cons_of_mem _ hevent)
    cases event with
    | slot x =>
      rw [replay, Event.apply]
      cases x.resolve o s with
      | error e => rfl
      | ok x' => exact hrest
    | entering ns => cases h _ List.mem_cons_self
    | importing statement stem item => cases h _ List.mem_cons_self

theorem visitList_batch_scope (h : ∀ b ∈ bs, b.Still) :
    (visitList (Batch.visit o) bs { state := (s, u) }).2.state.1 = s := by
  induction bs generalizing u with
  | nil => rfl
  | cons b bs ih =>
    have hscope : (replay o s b.events).scope = s := replay_scope_of_slots (h b List.mem_cons_self)
    cases he : (replay o s b.events).error with
    | some e =>
      rw [visitList_batch_of_error he]
      exact hscope
    | none =>
      rw [visitList_batch_of_ok he, hscope]
      exact ih fun b hb => h b (List.mem_cons_of_mem _ hb)

/-- A statement walked by itself in a scope: what is left of it, what it uses, and whether it was
stopped. -/
def Stmt.walkedIn (o : Options) (s : Scope) (x : Stmt) : Stmt × Progress (Scope × UsageSet) :=
  walk (collecting (resolver o)) (AnyNode.size (.stmt x)) .stmt x { state := (s, ∅) }

theorem visitList_stmt (o : Options) (s : Scope) (x : Stmt) :
    visitList (Batch.visit o) (Tree.batches [x]) { state := (s, ∅) } =
      (Tree.batches [(x.walkedIn o s).1], (x.walkedIn o s).2) := by
  have hcovers := walk_covers (collecting_proceeds (resolver_proceeds o)) (collecting_actsOn o)
    (AnyNode.size (.stmt x)) .stmt x (Nat.le_refl _) { state := (s, ∅) }
  have hone : ∀ x : Stmt, Tree.batches [x] =
      (AnyNode.preorder (.stmt x)).flatMap fun n => [n.batch] := by
    intro x
    rw [Tree.batches, Tree.preorder_eq, List.map_eq_flatMap]
    exact congrArg (List.flatMap _) (List.append_nil _)
  rw [hone, hone]
  exact hcovers

theorem frames_walkedIn (o : Options) (s : Scope) (x : Stmt) :
    AnyNode.frames (.stmt (x.walkedIn o s).1) = AnyNode.frames (.stmt x) := by
  obtain ⟨halone, -⟩ := walk_rel (collecting_simulates (resolver o)) (AnyNode.size (.stmt x)) .stmt
    x { state := (s, ∅) } { state := s } ⟨rfl, rfl⟩
  rw [Stmt.walkedIn, halone]
  exact walk_frames o _ .stmt x { state := s }

theorem Tree.preorder_cons (x : Stmt) (t : Tree) :
    Tree.preorder (x :: t) = Tree.preorder [x] ++ t.preorder := Tree.preorder_append [x] t

theorem Tree.batches_cons (x : Stmt) (t : Tree) :
    Tree.batches (x :: t) = Tree.batches [x] ++ t.batches := Tree.batches_append [x] t

/-- A statement that stays in its scope, and then others: if the first goes well by itself, the
others are met in the same scope, with its usages on top of those before. -/
theorem visitList_body_cons {x : Stmt} (hx : ∀ n ∈ Tree.preorder [x], ¬ n.changesScope) :
    visitList (Batch.visit o) (Tree.batches (x :: body)) { state := (s, u) } =
      let alone := x.walkedIn o s
      let after := visitList (Batch.visit o) (Tree.batches body)
        { state := (s, u ∪ alone.2.state.2), stop := alone.2.stop }
      (Tree.batches [alone.1] ++ after.1, after.2) := by
  have hscope := visitList_batch_scope (o := o) (s := s) (u := ∅) (Tree.batches_still hx)
  rw [visitList_stmt] at hscope
  dsimp only at hscope
  rw [Tree.batches_cons, visitList_append, visitList_batch_union, visitList_stmt]
  dsimp only
  rw [hscope]

/-- Statements that stay in the scope they are met in do not affect one another. They all go well
exactly if each goes well by itself, and then each is left as it would be by itself. -/
theorem visitList_body (hb : ∀ n ∈ Tree.preorder body, ¬ n.changesScope) (u : UsageSet) :
    let pass := visitList (Batch.visit o) (Tree.batches body) { state := (s, u) }
    (pass.2.stop = none ↔ ∀ x ∈ body, (x.walkedIn o s).2.stop = none) ∧
      (pass.2.stop = none →
        pass.1 = Tree.batches (body.map fun x => (x.walkedIn o s).1) ∧
        ∀ key, key ∈ pass.2.state.2 ↔
          key ∈ u ∨ ∃ x ∈ body, key ∈ (x.walkedIn o s).2.state.2) := by
  induction body generalizing u with
  | nil =>
    refine ⟨⟨fun _ x hx => absurd hx List.not_mem_nil, fun _ => rfl⟩, fun _ => ⟨rfl, fun key => ?_⟩⟩
    exact ⟨Or.inl, fun h => h.resolve_right fun ⟨x, hx, _⟩ => List.not_mem_nil hx⟩
  | cons x body ih =>
    intro pass
    have hx : ∀ n ∈ Tree.preorder [x], ¬ n.changesScope := by
      intro n hn
      refine hb n ?_
      rw [Tree.preorder_cons]
      exact List.mem_append_left _ hn
    have hrest : ∀ n ∈ Tree.preorder body, ¬ n.changesScope := by
      intro n hn
      refine hb n ?_
      rw [Tree.preorder_cons]
      exact List.mem_append_right _ hn
    have hpass : pass = _ := visitList_body_cons hx
    dsimp only at hpass
    cases hstop : (x.walkedIn o s).2.stop with
    | some stop =>
      have hafter : pass.2.stop = some stop := by
        rw [hpass, hstop, visitList_batch_of_stop rfl]
      rw [hafter]
      refine ⟨⟨fun h => absurd h (Option.some_ne_none _), fun h => ?_⟩,
        fun h => absurd h (Option.some_ne_none _)⟩
      exact hstop.symm.trans (h x List.mem_cons_self)
    | none =>
      rw [hstop] at hpass
      obtain ⟨hiff, hleft⟩ := ih hrest (u ∪ (x.walkedIn o s).2.state.2)
      rw [hpass, List.forall_mem_cons]
      refine ⟨⟨fun h => ⟨hstop, hiff.mp h⟩, fun h => hiff.mpr h.2⟩, fun h => ?_⟩
      obtain ⟨hbatches, hkeys⟩ := hleft h
      refine ⟨?_, fun key => ?_⟩
      · dsimp only
        rw [hbatches, List.map_cons]
        exact (Tree.batches_cons _ _).symm
      · dsimp only
        rw [hkeys, Std.ExtTreeMap.mem_union_iff, List.exists_mem_cons_iff, or_assoc]

/-- Imports stay as they are and use nothing. -/
theorem visitList_imports (hi : ∀ x ∈ imports, x.isImport) (s : Scope) (u : UsageSet) :
    ∃ s' stop, visitList (Batch.visit o) (Tree.batches imports) { state := (s, u) } =
      (Tree.batches imports, { state := (s', u), stop }) := by
  induction imports generalizing s with
  | nil => exact ⟨s, none, rfl⟩
  | cons x imports ih =>
    have hx : AnyNode.isImport ⟨.stmt, x⟩ := hi x List.mem_cons_self
    have hone : Tree.batches [x] = [AnyNode.batch ⟨.stmt, x⟩] := by
      rw [Tree.batches, Tree.preorder_eq, List.map_singleton, List.flatMap_singleton,
        AnyNode.preorder_eq, AnyNode.stmt, children_of_isImport hx]
      rfl
    have hcall := collecting_once_covers o .stmt x { state := (s, u) }
    rw [once_of_isImport o s u hx] at hcall
    rw [Tree.batches_cons, hone, visitList_append, hcall]
    dsimp only
    cases (Resolve.scopeAfter s .stmt x).2 with
    | some e =>
      refine ⟨(Resolve.scopeAfter s .stmt x).1, some (.failed e), ?_⟩
      rw [visitList_batch_of_stop rfl]
      rfl
    | none =>
      obtain ⟨s', stop, hrest⟩ := ih (fun x hx => hi x (List.mem_cons_of_mem _ hx))
        (Resolve.scopeAfter s .stmt x).1
      refine ⟨s', stop, ?_⟩
      rw [Option.map_none, hrest]

theorem Tree.preorder_namespace (ns : Option Name) (body : List Stmt) :
    Tree.preorder [.namespaceDecl ns body] =
      .stmt (.namespaceDecl ns body) :: Tree.preorder body :=
  congrArg (List.cons _) (List.append_nil _)

theorem Tree.batches_singleton_namespace (ns : Option Name) (body : List Stmt) :
    Tree.batches [.namespaceDecl ns body] =
      { counted := false, events := [.entering ns] } :: Tree.batches body := by
  rw [Tree.batches, Tree.preorder_namespace]
  rfl

theorem Tree.frames_singleton_namespace (ns : Option Name) (body : List Stmt) :
    Tree.frames [.namespaceDecl ns body] =
      .stmt (.namespaceDecl ns (body.map fun _ => .nop)) :: Tree.frames body := by
  have hframe : AnyNode.frame (.stmt (.namespaceDecl ns body)) =
      .stmt (.namespaceDecl ns (body.map fun _ => .nop)) :=
    congrArg (fun body => AnyNode.stmt (.namespaceDecl ns body)) (visitList_id _ body)
  rw [Tree.frames, Tree.preorder_namespace, List.map_cons, hframe]
  rfl

/-- The statements in the place of those of the body have their frames, one for one. -/
theorem frames_walkedIn_body (o : Options) (s : Scope) (ns : Option Name)
    (imports body : List Stmt) :
    Tree.frames [.namespaceDecl ns (imports ++ body.map fun x => (x.walkedIn o s).1)] =
      Tree.frames [.namespaceDecl ns (imports ++ body)] := by
  have hbody : Tree.frames (body.map fun x => (x.walkedIn o s).1) = Tree.frames body := by
    rw [Tree.frames_eq, Tree.frames_eq, List.map_map, List.flatMap_map, List.flatMap_map]
    exact congrArg (List.flatMap · body) (funext (frames_walkedIn o s))
  rw [Tree.frames_singleton_namespace, Tree.frames_singleton_namespace, Tree.frames_append,
    Tree.frames_append, hbody, List.map_append, List.map_append, List.map_map]
  rfl

theorem visitList_namespace (o : Options) (ns : Option Name) (imports body : List Stmt) :
    visitList (Batch.visit o) (Tree.batches [.namespaceDecl ns (imports ++ body)])
        { state := ({}, ∅) } =
      let front := visitList (Batch.visit o) (Tree.batches imports)
        { state := (Scope.entering ns, ∅) }
      let back := visitList (Batch.visit o) (Tree.batches body) front.2
      ({ counted := false, events := [.entering ns] } :: (front.1 ++ back.1), back.2) := by
  rw [Tree.batches_singleton_namespace, visitList_batch_of_ok rfl, Tree.batches_append]
  dsimp only
  rw [visitList_append]
  rfl

/-- After imports that went well, the session is told by the statements of the body, each by itself
in the scope that the imports have led to. -/
theorem collect_namespace (hb : ∀ n ∈ Tree.preorder body, ¬ n.changesScope)
    (hfront : visitList (Batch.visit o) (Tree.batches imports)
      { state := (Scope.entering ns, ∅) } = (Tree.batches imports, { state := (s, ∅) })) :
    let session := collect o [.namespaceDecl ns (imports ++ body)]
    (session.stop = none ↔ ∀ x ∈ body, (x.walkedIn o s).2.stop = none) ∧
      (session.stop = none →
        session.tree = [.namespaceDecl ns (imports ++ body.map fun x => (x.walkedIn o s).1)] ∧
        session.state.1 = s ∧
        ∀ key, key ∈ session.state.2 ↔ ∃ x ∈ body, key ∈ (x.walkedIn o s).2.state.2) := by
  intro session
  obtain ⟨hpass, hframes⟩ := collectMore_batches o [.namespaceDecl ns (imports ++ body)] ({}, ∅)
  change _ = (session.tree.batches, Progress.mk session.state session.stop) at hpass
  change session.tree.frames = _ at hframes
  rw [visitList_namespace, hfront] at hpass
  dsimp only at hpass
  obtain ⟨hbatches, hprogress⟩ := Prod.mk.inj hpass
  obtain ⟨hiff, hleft⟩ := visitList_body (o := o) (s := s) hb ∅
  have hscope := visitList_batch_scope (o := o) (s := s) (u := ∅) (Tree.batches_still hb)
  rw [hprogress] at hiff hleft hscope
  refine ⟨hiff, fun hstop => ?_⟩
  obtain ⟨hbody, hkeys⟩ := hleft hstop
  refine ⟨?_, hscope, fun key => ?_⟩
  · refine Tree.eq_of_frames_of_events (hframes.trans (frames_walkedIn_body o s ns _ _).symm) ?_
    rw [Tree.events_eq_batches, Tree.events_eq_batches, ← hbatches, hbody,
      Tree.batches_singleton_namespace, Tree.batches_append]
  · rw [hkeys key, or_iff_right Std.ExtTreeMap.not_mem_empty]

/-- The body of a namespace, after its imports, holds neither namespaces nor imports. In whatever
order its statements are, the session goes well or not, and if it does, it ends in the same scope
and with the same texts in use. Each statement is left as it would be by itself in that scope,
wherever it stands. -/
theorem collect_perm (o : Options) (ns : Option Name) (imports : List Stmt)
    (hi : ∀ x ∈ imports, x.isImport) (hb : ∀ n ∈ Tree.preorder body, ¬ n.changesScope)
    (hp : body.Perm body') :
    let session := collect o [.namespaceDecl ns (imports ++ body)]
    let other := collect o [.namespaceDecl ns (imports ++ body')]
    let left := fun x => (Stmt.walkedIn o session.state.1 x).1
    (other.stop = none ↔ session.stop = none) ∧
      (session.stop = none →
        (∀ key, key ∈ other.state.2 ↔ key ∈ session.state.2) ∧
        other.state.1 = session.state.1 ∧
        session.tree = [.namespaceDecl ns (imports ++ body.map left)] ∧
        other.tree = [.namespaceDecl ns (imports ++ body'.map left)]) := by
  intro session other left
  have hb' : ∀ n ∈ Tree.preorder body', ¬ n.changesScope := by
    intro n hn
    refine hb n ?_
    rw [Tree.preorder_eq] at hn ⊢
    exact ((hp.map AnyNode.stmt).flatMap_right AnyNode.preorder).mem_iff.mpr hn
  obtain ⟨s, stop, hfront⟩ := visitList_imports hi (o := o) (Scope.entering ns) ∅
  cases stop with
  | some stop =>
    have hstop : ∀ body, (collect o [.namespaceDecl ns (imports ++ body)]).stop = some stop := by
      intro body
      obtain ⟨hpass, -⟩ := collectMore_batches o [.namespaceDecl ns (imports ++ body)] ({}, ∅)
      rw [visitList_namespace, hfront] at hpass
      dsimp only at hpass
      rw [visitList_batch_of_stop rfl] at hpass
      exact congrArg (·.2.stop) hpass.symm
    have hsession : session.stop = some stop := hstop body
    have hother : other.stop = some stop := hstop body'
    rw [hsession, hother]
    exact ⟨Iff.rfl, fun h => absurd h (Option.some_ne_none _)⟩
  | none =>
    obtain ⟨hiff, hleft⟩ := collect_namespace hb hfront
    obtain ⟨hiff', hleft'⟩ := collect_namespace hb' hfront
    have hstop : other.stop = none ↔ session.stop = none := by
      rw [hiff, hiff']
      exact forall_congr' fun x => imp_congr_left hp.mem_iff.symm
    refine ⟨hstop, fun h => ?_⟩
    obtain ⟨htree, hscope, hkeys⟩ := hleft h
    obtain ⟨htree', hscope', hkeys'⟩ := hleft' (hstop.mpr h)
    have hsame : left = fun x => (Stmt.walkedIn o s x).1 := by
      rw [← hscope]
    rw [hsame]
    refine ⟨fun key => ?_, hscope'.trans hscope.symm, htree, htree'⟩
    rw [hkeys, hkeys']
    exact exists_congr fun x => and_congr_left' hp.mem_iff.symm

/-- A namespace whose first statement uses what it imports. -/
def orderedSample (body : List Stmt) : Tree :=
  [.namespaceDecl (some (Name.parse "App"))
    ([.useImport .unspecified [{ name := Name.parse "Lib\\Base", alias? := none }]] ++ body)]

theorem collect_perm_orderedSample :
    let first : Stmt := .functionDecl "main" none [] none [.expression (.newObject "Base" [])]
    let second : Stmt := .expression (.callTo "other" [.constant "LIMIT"])
    (collect {} (orderedSample [first, second])).stop = none ∧
      (collect {} (orderedSample [second, first])).stop = none ∧
      "Lib\\Base" ∈ (collect {} (orderedSample [second, first])).state.2 := by
  intro first second
  have h : (collect {} (orderedSample [first, second])).stop = none := by decide +kernel
  have hkey : "Lib\\Base" ∈ (collect {} (orderedSample [first, second])).state.2 := by
    decide +kernel
  obtain ⟨hstop, hleft⟩ := collect_perm {} (some (Name.parse "App"))
    [.useImport .unspecified [{ name := Name.parse "Lib\\Base", alias? := none }]]
    (by decide) (by decide) (.swap second first [])
  exact ⟨h, hstop.mpr h, ((hleft h).1 _).mpr hkey⟩

end SymbolUsage
