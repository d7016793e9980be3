import SymbolUsage.Proofs.Tree.Preorder
import SymbolUsage.Proofs.Tree.Readers
import SymbolUsage.Tree.Basic

/-! What a tree is encoded as is complete if all its numbers are finite, and so it can be decoded as
long as it does not nest too deep. -/
namespace SymbolUsage

open Json

attribute [simp] complete_arr_iff Complete.null Complete.bool Complete.int Complete.float
  Complete.str

/-- A member other than a number can be null. -/
@[simp]
theorem complete_obj_cons {key : String} {v : Json} {members : List (String × Json)} :
    Complete (.obj ((key, v) :: members)) ↔
      (key = "float" → v ≠ .null) ∧ Complete v ∧ Complete (.obj members) := by
  simp [complete_obj_iff, and_assoc]

@[simp]
theorem complete_obj_nil : Complete (.obj []) := by simp [complete_obj_iff]

@[simp]
theorem complete_obj_append {members more : List (String × Json)} :
    Complete (.obj (members ++ more)) ↔ Complete (.obj members) ∧ Complete (.obj more) := by
  rw [complete_obj_iff, complete_obj_iff, complete_obj_iff, List.forall_mem_append]

@[simp]
theorem complete_present {key : String} (hk : key ≠ "float") {v : Option Json} :
    Complete (.obj (Json.present key v)) ↔ ∀ w, v = some w → Complete w := by
  cases v <;> simp [Json.present, hk]

@[simp]
theorem complete_strings (items : List String) : Complete (Json.strings items) := by
  simp [Json.strings]

@[simp]
theorem complete_ofOption {α : Type} {encode : α → Json} {a : Option α} :
    Complete (Json.ofOption encode a) ↔ ∀ b, a = some b → Complete (encode b) := by
  cases a <;> simp [Json.ofOption]

@[simp]
theorem Name.complete_encode : (n : Name) → Complete n.encode
  | { parts, kind, namespaced, written } => by
    have hnamespaced : ∀ n, namespaced = some n → Complete n.encode := by
      rintro n rfl
      exact Name.complete_encode n
    have hwritten : ∀ n, written = some n → Complete n.encode := by
      rintro n rfl
      exact Name.complete_encode n
    cases namespaced <;> cases written <;> simp_all [Name.encode, Name.encode?]

@[simp]
theorem complete_names (ns : List Name) : Complete (Json.names ns) := by
  simp [Json.names]

@[simp]
theorem complete_declaredName (n : Option Name) : Complete (.obj (Json.declaredName n)) := by
  cases n <;> simp [Json.declaredName]

@[simp]
theorem TypeHint.complete_encode (t : TypeHint) : Complete t.encode := by
  induction t with
  | name n => simp [TypeHint.encode]
  | builtin n => simp [TypeHint.encode]
  | nullable inner ih => simp [TypeHint.encode, ih]

@[simp]
theorem complete_typeHint? (t : Option TypeHint) : Complete (Json.typeHint? t) := by
  simp [Json.typeHint?]

@[simp]
theorem ImportItem.complete_encode (item : ImportItem) : Complete item.encode := by
  simp [ImportItem.encode]

@[simp]
theorem Adaptation.complete_encode (a : Adaptation) : Complete a.encode := by
  cases a <;> simp [Adaptation.encode]

/-- Each of some nodes is encoded completely. -/
def AllComplete (ns : List AnyNode) : Prop := ∀ n ∈ ns, Complete n.encode

section

variable {α : Type} {n : AnyNode} {ns ns' : List AnyNode}

@[simp]
theorem allComplete_nil : AllComplete [] := List.forall_mem_nil _

@[simp]
theorem allComplete_cons : AllComplete (n :: ns) ↔ Complete n.encode ∧ AllComplete ns :=
  List.forall_mem_cons

@[simp]
theorem allComplete_append : AllComplete (ns ++ ns') ↔ AllComplete ns ∧ AllComplete ns' :=
  List.forall_mem_append

@[simp]
theorem allComplete_map {f : α → AnyNode} {xs : List α} :
    AllComplete (xs.map f) ↔ ∀ x ∈ xs, Complete (f x).encode :=
  List.forall_mem_map

@[simp]
theorem allComplete_flatMap {f : α → List AnyNode} {xs : List α} :
    AllComplete (xs.flatMap f) ↔ ∀ x ∈ xs, AllComplete (f x) := by
  simp only [AllComplete, List.mem_flatMap]
  exact ⟨fun h x hx n hn => h n ⟨x, hx, hn⟩, fun h n ⟨x, hx, hn⟩ => h x hx n hn⟩

end

@[simp]
theorem encode_stmt (s : Stmt) : (AnyNode.stmt s).encode = s.encode := rfl

@[simp]
theorem encode_expr (e : Expr) : (AnyNode.expr e).encode = e.encode := rfl

@[simp]
theorem encode_param (p : Param) : (AnyNode.param p).encode = p.encode := rfl

@[simp]
theorem encode_catchClause (c : Catch) : (AnyNode.catchClause c).encode = c.encode := rfl

@[simp]
theorem encode_anonymousClass (c : ClassDecl) : (AnyNode.anonymousClass c).encode = c.encode := rfl

@[simp]
theorem complete_expr? (e : Option Expr) :
    Complete (Expr.encode? e) ↔ ∀ x, e = some x → Complete x.encode := by
  cases e <;> simp [Expr.encode?]

@[simp]
theorem complete_stmts? (ss : Option (List Stmt)) :
    Complete (Stmt.encodeList? ss) ↔ ∀ s ∈ ss.getD [], Complete s.encode := by
  cases ss <;> simp [Stmt.encodeList?, Stmt.encodeList_eq]

@[simp]
theorem complete_exprs? (es : Option (List Expr)) :
    Complete (Expr.encodeList? es) ↔ ∀ e ∈ es.getD [], Complete e.encode := by
  cases es <;> simp [Expr.encodeList?, Expr.encodeList_eq]

@[simp]
theorem Literal.complete_encode (value : Literal) :
    Complete value.encode ↔ ∀ d, value = .float d → d.isFinite := by
  cases value with
  | float d => cases h : d.isFinite <;> simp [Literal.encode, h]
  | _ => simp [Literal.encode]

@[simp]
theorem Ident.complete_encode {plainWord computedWord : String} (hp : plainWord ≠ "float")
    (hc : computedWord ≠ "float") (i : Ident) :
    Complete (i.encode plainWord computedWord) ↔ AllComplete i.children := by
  cases i <;> simp [Ident.encode, Ident.children, hp, hc]

@[simp]
theorem Callee.complete_encode (c : Callee) : Complete c.encode ↔ AllComplete c.children := by
  cases c <;> simp [Callee.encode, Callee.children]

@[simp]
theorem ClassRef.complete_encode (c : ClassRef) : Complete c.encode ↔ AllComplete c.children := by
  cases c <;> simp [ClassRef.encode, ClassRef.children]

@[simp]
theorem Arg.complete_encode (a : Arg) : Complete a.encode ↔ AllComplete a.children := by
  cases a
  simp [Arg.encode, Arg.children]

@[simp]
theorem ArrayItem.complete_encode (i : ArrayItem) :
    Complete i.encode ↔ AllComplete i.children := by
  cases i
  simp [ArrayItem.encode, ArrayItem.children]

@[simp]
theorem MatchArm.complete_encode (a : MatchArm) : Complete a.encode ↔ AllComplete a.children := by
  cases a
  simp [MatchArm.encode, MatchArm.children]

@[simp]
theorem ConstItem.complete_encode (i : ConstItem) :
    Complete i.encode ↔ AllComplete i.children := by
  cases i
  simp [ConstItem.encode, ConstItem.children]

@[simp]
theorem ElseIf.complete_encode (e : ElseIf) : Complete e.encode ↔ AllComplete e.children := by
  cases e
  simp [ElseIf.encode, ElseIf.children, Stmt.encodeList_eq]

@[simp]
theorem Case.complete_encode (c : Case) : Complete c.encode ↔ AllComplete c.children := by
  cases c
  simp [Case.encode, Case.children, Stmt.encodeList_eq]

@[simp]
theorem StaticVar.complete_encode (v : StaticVar) :
    Complete v.encode ↔ AllComplete v.children := by
  cases v
  simp [StaticVar.encode, StaticVar.children]

theorem ClassDecl.complete_encode (c : ClassDecl) :
    Complete c.encode ↔ AllComplete (c.body.map .stmt) := by
  cases c
  simp [ClassDecl.encode, Stmt.encodeList_eq]

theorem Catch.complete_encode (c : Catch) :
    Complete c.encode ↔ AllComplete (c.body.map .stmt) := by
  cases c
  simp [Catch.encode, Stmt.encodeList_eq]

theorem Param.complete_encode (p : Param) :
    Complete p.encode ↔ AllComplete (p.default.toList.map .expr) := by
  cases p
  simp [Param.encode]

theorem Stmt.complete_encode (s : Stmt) : Complete s.encode ↔ AllComplete s.children := by
  cases s <;> simp [Stmt.encode, Stmt.tagged, Stmt.children, Stmt.encodeList_eq,
    Expr.encodeList_eq, Param.encodeList_eq, Catch.encodeList_eq, ConstItem.encodeList_eq,
    ElseIf.encodeList_eq, Case.encodeList_eq, StaticVar.encodeList_eq, ClassDecl.complete_encode]

/-- Not a number that is infinite or none at all. -/
def AnyNode.Finite (n : AnyNode) : Prop := ∀ d, n = .expr (.literal (.float d)) → d.isFinite

@[simp]
theorem finite_expr {e : Expr} :
    AnyNode.Finite (.expr e) ↔ ∀ d, e = .literal (.float d) → d.isFinite := by
  simp [AnyNode.Finite, AnyNode.expr]

theorem Expr.complete_encode (e : Expr) :
    Complete e.encode ↔ AnyNode.Finite (.expr e) ∧ AllComplete e.children := by
  cases e <;> simp [Expr.encode, Expr.tagged, Expr.children, Stmt.encodeList_eq,
    Expr.encodeList_eq, Param.encodeList_eq, Arg.encodeList_eq, ArrayItem.encodeList_eq,
    MatchArm.encodeList_eq]

namespace AnyNode

theorem complete_encode (n : AnyNode) :
    Complete n.encode ↔ n.Finite ∧ AllComplete n.children := by
  have hother : ∀ {k : NodeKind} (n : Node k), k ≠ .expr → AnyNode.Finite ⟨k, n⟩ := by
    intro k n hk d hd
    exact absurd (congrArg AnyNode.kind hd) hk
  obtain ⟨k, n⟩ := n
  cases k with
  | stmt => exact (Stmt.complete_encode n).trans (and_iff_right (hother _ (by decide))).symm
  | expr => exact Expr.complete_encode n
  | catchClause => exact (Catch.complete_encode n).trans (and_iff_right (hother _ (by decide))).symm
  | param => exact (Param.complete_encode n).trans (and_iff_right (hother _ (by decide))).symm
  | anonymousClass =>
    exact (ClassDecl.complete_encode n).trans (and_iff_right (hother _ (by decide))).symm

/-- A node is encoded completely if all numbers in it are finite. The induction is over the size of
the node. -/
theorem complete_of_finite (n : AnyNode) (h : ∀ m ∈ n.preorder, m.Finite) : Complete n.encode := by
  rw [preorder_eq, List.forall_mem_cons] at h
  obtain ⟨hown, hbelow⟩ := h
  refine n.complete_encode.mpr ⟨hown, fun c hc => complete_of_finite c fun m hm => ?_⟩
  exact hbelow m (List.mem_flatMap.mpr ⟨c, hc, hm⟩)
termination_by n.size
decreasing_by exact size_lt_of_mem_children hc

end AnyNode

theorem Tree.complete_of_finite {t : Tree} (h : ∀ n ∈ t.preorder, n.Finite) :
    Complete t.encode := by
  rw [Tree.preorder_eq] at h
  rw [Tree.encode, complete_arr_iff, List.forall_mem_map]
  intro s hs
  refine (AnyNode.stmt s).complete_of_finite fun m hm => h m ?_
  exact List.mem_flatMap.mpr ⟨.stmt s, List.mem_map_of_mem hs, hm⟩

/-- A tree whose numbers are finite and whose encoding does not nest too deep can be told from the
encoding. -/
theorem Tree.decode_encode (t : Tree)
    (hfinite : ∀ d, AnyNode.expr (.literal (.float d)) ∈ t.preorder → d.isFinite)
    (hdepth : t.encode.depth ≤ maxLevels) : Tree.decode t.encode = .ok t := by
  refine Tree.decode_of_fits ⟨hdepth, Tree.complete_of_finite ?_⟩
  rintro n hn d rfl
  exact hfinite d hn

/-- A method without a body, a function with an empty one, an unknown expression, a number, and a
name with what it was written as. -/
def encodedSample : Tree :=
  let base := { Name.fullyQualified ["App", "Base"] with written := some (Name.parse "Base") }
  [.classDecl
      { name := none, namespaced := none, parent := some base, interfaces := [],
        body := [.method "run" [Param.plain "x" none] none none] },
    .functionDecl "main" (some (Name.fullyQualified ["main"])) [] none [],
    .echo [.unknown, .literal (.float (.ofInt 2))], .ret none, .nop]

theorem decode_encodedSample : Tree.decode encodedSample.encode = .ok encodedSample := by
  refine Tree.decode_encode encodedSample ?_ (by decide)
  intro d hd
  have hd : d = .ofInt 2 := by
    simpa [encodedSample, Tree.preorder, Stmt.preorders, Stmt.preorder, ClassDecl.preorderBelow,
      Stmt.preorders?, Param.preorders, Param.preorder, Param.plain, Expr.preorder?,
      Expr.preorders, Expr.preorder, AnyNode.stmt, AnyNode.expr, AnyNode.param] using hd
  subst hd
  decide

end SymbolUsage
