import Mathlib.Data.List.Forall2
import SymbolUsage.Json.Fields

/-! Lists up to order, and the members of an object by their keys. -/
namespace SymbolUsage.Json

section

variable {α β : Type} {R : α → α → Prop} {x : α} {xs xs' : List α}

/-- The items of the second list are related to those of the first, in some order. -/
def Rearranged (R : α → α → Prop) (xs xs' : List α) : Prop :=
  ∃ middle, List.Forall₂ R xs middle ∧ middle.Perm xs'

theorem Rearranged.length_eq (h : Rearranged R xs xs') : xs.length = xs'.length := by
  obtain ⟨middle, hrel, hperm⟩ := h
  exact hrel.length_eq.trans hperm.length_eq

theorem Rearranged.singleton (h : Rearranged R [x] xs') : ∃ x', xs' = [x'] ∧ R x x' := by
  obtain ⟨middle, hrel, hperm⟩ := h
  obtain ⟨x', rest, hx, hrest, rfl⟩ := List.forall₂_cons_left_iff.mp hrel
  cases hrest
  exact ⟨x', (List.singleton_perm.mp hperm).symm, hx⟩

theorem Rearranged.filter {p : α → Bool} (h : Rearranged R xs xs')
    (hp : ∀ x x', R x x' → p x = p x') : Rearranged R (xs.filter p) (xs'.filter p) := by
  obtain ⟨middle, hrel, hperm⟩ := h
  refine ⟨middle.filter p, List.rel_filter ?_ hrel, hperm.filter p⟩
  intro x x' hx
  exact iff_of_eq (congrArg (· = true) (hp x x' hx))

theorem Rearranged.map {S : β → β → Prop} {f : α → β} (h : Rearranged R xs xs')
    (hf : ∀ x x', R x x' → S (f x) (f x')) : Rearranged S (xs.map f) (xs'.map f) := by
  obtain ⟨middle, hrel, hperm⟩ := h
  refine ⟨middle.map f, ?_, hperm.map f⟩
  rw [List.forall₂_map_left_iff, List.forall₂_map_right_iff]
  exact hrel.imp hf

theorem forall_mem_iff_of_forall₂ {P : α → Prop} (h : List.Forall₂ R xs xs')
    (hP : ∀ x x', R x x' → (P x ↔ P x')) : (∀ x ∈ xs, P x) ↔ ∀ x ∈ xs', P x := by
  induction h with
  | nil => rfl
  | cons hx _ ih => rw [List.forall_mem_cons, List.forall_mem_cons, hP _ _ hx, ih]

theorem getElem?_of_forall₂ (h : List.Forall₂ R xs xs') (i : Nat) :
    (xs[i]? = none ∧ xs'[i]? = none) ∨ ∃ x x', xs[i]? = some x ∧ xs'[i]? = some x' ∧ R x x' := by
  induction h generalizing i with
  | nil => exact .inl ⟨rfl, rfl⟩
  | cons hx _ ih =>
    cases i with
    | zero => exact .inr ⟨_, _, rfl, rfl, hx⟩
    | succ i => exact ih i

theorem Rearranged.forall_mem_iff {P : α → Prop} (h : Rearranged R xs xs')
    (hP : ∀ x x', R x x' → (P x ↔ P x')) : (∀ x ∈ xs, P x) ↔ ∀ x ∈ xs', P x := by
  obtain ⟨middle, hrel, hperm⟩ := h
  rw [forall_mem_iff_of_forall₂ hrel hP]
  exact forall_congr' fun x => imp_congr_left hperm.mem_iff

end

variable {R : Json → Json → Prop} {members members' : List (String × Json)} {key : String}
variable {v : Json}

/-- Members with the same key and related values. -/
def SameKey (R : Json → Json → Prop) (x y : String × Json) : Prop := x.1 = y.1 ∧ R x.2 y.2

/-- The values of the members with a key. -/
def valuesOf (key : String) (members : List (String × Json)) : List Json :=
  (members.filter (·.1 = key)).map Prod.snd

@[simp]
theorem valuesOf_nil : valuesOf key [] = [] := rfl

@[simp]
theorem valuesOf_cons_self : valuesOf key ((key, v) :: members) = v :: valuesOf key members := by
  simp [valuesOf]

theorem valuesOf_cons_of_ne {k : String} (h : k ≠ key) :
    valuesOf key ((k, v) :: members) = valuesOf key members := by
  simp [valuesOf, h]

theorem Rearranged.valuesOf (h : Rearranged (SameKey R) members members') (key : String) :
    Rearranged R (valuesOf key members) (valuesOf key members') := by
  have hkey : ∀ x y, SameKey R x y → decide (x.1 = key) = decide (y.1 = key) := by
    intro x y hxy
    rw [hxy.1]
  exact (h.filter hkey).map fun _ _ hxy => hxy.2

theorem snd_occurrences (key : String) (i : Nat) :
    (occurrences key i members).map Prod.snd = valuesOf key members := by
  induction members generalizing i with
  | nil => rfl
  | cons x members ih =>
    obtain ⟨k, v⟩ := x
    rw [occurrences]
    by_cases hk : k = key
    · rw [if_pos hk, List.map_cons, ih, hk, valuesOf_cons_self]
    · rw [if_neg hk, ih, valuesOf_cons_of_ne hk]

theorem mem_of_mem_valuesOf (h : v ∈ valuesOf key members) : (key, v) ∈ members := by
  obtain ⟨x, hx, rfl⟩ := List.mem_map.mp h
  obtain ⟨hmem, hkey⟩ := List.mem_filter.mp hx
  rw [← of_decide_eq_true hkey]
  exact hmem

theorem mem_of_occurrences {i j : Nat} (h : (i, v) ∈ occurrences key j members) :
    (key, v) ∈ members := by
  have hv : v ∈ (occurrences key j members).map Prod.snd := List.mem_map_of_mem h
  rw [snd_occurrences] at hv
  exact mem_of_mem_valuesOf hv

end SymbolUsage.Json
