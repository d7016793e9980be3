import SymbolUsage.Proofs.Usage.Batches
import SymbolUsage.Proofs.Usage.Exactness

/-! A collector used again starts each session in a fresh scope; only its usages add up. -/
namespace SymbolUsage

variable {o : Options}

theorem UsageSet.union_empty (u : UsageSet) : u ∪ ∅ = u := by
  refine Std.ExtTreeMap.ext_getElem? fun key => ?_
  rw [Std.ExtTreeMap.getElem?_union, Std.ExtTreeMap.getElem?_empty, Option.none_or]

theorem UsageSet.union_assoc (u v w : UsageSet) : u ∪ v ∪ w = u ∪ (v ∪ w) := by
  refine Std.ExtTreeMap.ext_getElem? fun key => ?_
  simp only [Std.ExtTreeMap.getElem?_union, Option.or_assoc]

theorem UsageSet.recordAll_eq_union (u : UsageSet) (names : List Name) :
    u.recordAll names = u ∪ UsageSet.recordAll ∅ names := by
  refine Std.ExtTreeMap.ext_getElem? fun key => ?_
  simp only [Std.ExtTreeMap.getElem?_union, UsageSet.getElem?_recordAll,
    Std.ExtTreeMap.getElem?_empty, Option.or_none]

/-- Whatever has been recorded before, a pass does the same and records the same on top of it. -/
theorem visitList_batch_union (bs : List Batch) (s : Scope) (u : UsageSet) :
    visitList (Batch.visit o) bs { state := (s, u) } =
      let alone := visitList (Batch.visit o) bs { state := (s, ∅) }
      (alone.1, { state := (alone.2.state.1, u ∪ alone.2.state.2), stop := alone.2.stop }) := by
  induction bs generalizing s u with
  | nil =>
    dsimp only [visitList, pure_apply]
    rw [UsageSet.union_empty]
  | cons b bs ih =>
    cases he : (replay o s b.events).error with
    | some e =>
      rw [visitList_batch_of_error he, visitList_batch_of_error he]
      dsimp only
      rw [UsageSet.union_empty]
    | none =>
      rw [visitList_batch_of_ok he, visitList_batch_of_ok he]
      dsimp only
      rw [ih, ih _ (UsageSet.recordAll ∅ _)]
      dsimp only
      rw [UsageSet.recordAll_eq_union u, UsageSet.union_assoc]

/-- One session of a used collector: that of a fresh one, on top of the usages there are. -/
theorem collectMore_eq_collect (o : Options) (t : Tree) (s : Scope × UsageSet) :
    collectMore o t s =
      let fresh := collect o t
      { fresh with state := (fresh.state.1, s.2 ∪ fresh.state.2) } := by
  obtain ⟨hpass, hframes⟩ := collectMore_batches o t ({}, ∅)
  refine collectMore_eq_of_pass ?_ hframes
  rw [visitList_batch_union, hpass]
  rfl

/-- The sessions of one collector that walks several trees, each after the other. -/
def collectInTurn (o : Options) : Scope × UsageSet → List Tree → List (Walked (Scope × UsageSet))
  | _, [] => []
  | s, t :: ts =>
    let walked := collectMore o t s
    walked :: collectInTurn o walked.state ts

/-- The usages of several sessions on top of `u`, with later entries in the place of earlier
ones. -/
def UsageSet.mergeAll (u : UsageSet) (sessions : List (Walked (Scope × UsageSet))) : UsageSet :=
  sessions.foldl (fun u session => u ∪ session.state.2) u

/-- Whatever a collector has been through, each of its sessions leaves the tree and the scope and
ends as one of a fresh collector does. Of the sessions before, also of failed ones, nothing but the
usages stays. -/
theorem collectInTurn_fresh (o : Options) (s : Scope × UsageSet) (ts : List Tree) (i : Nat) :
    (collectInTurn o s ts)[i]? =
      (collectEach o ts)[i]?.map fun fresh =>
        { fresh with
          state := (fresh.state.1, s.2.mergeAll ((collectEach o ts).take (i + 1))) } := by
  induction ts generalizing s i with
  | nil => rfl
  | cons t ts ih =>
    rw [collectInTurn, collectMore_eq_collect]
    cases i with
    | zero => rfl
    | succ i => exact ih _ i

end SymbolUsage
