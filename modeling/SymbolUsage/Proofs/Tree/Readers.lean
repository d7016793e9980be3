import SymbolUsage.Proofs.Json.Faithful
import SymbolUsage.Tree.Decode
import SymbolUsage.Tree.Encode

/-! The readers of a tree and of its parts give back what was encoded. -/
namespace SymbolUsage

open Json

variable {m n : Nat} {stmt : Reader Stmt} {expr : Reader Expr} {timing : Timing}

theorem NameKind.faithful : Faithful m NameKind.read (fun k => .str k.tag) :=
  choice_faithful fun k => by cases k <;> rfl

theorem ImportKind.faithful : Faithful m ImportKind.read (fun k => .str k.tag) :=
  choice_faithful fun k => by cases k <;> rfl

theorem BinaryOp.faithful : Faithful m BinaryOp.read (fun o => .str o.tag) :=
  choice_faithful fun o => by cases o <;> rfl

theorem UnaryOp.faithful : Faithful m UnaryOp.read (fun o => .str o.tag) :=
  choice_faithful fun o => by cases o <;> rfl

theorem Modifier.faithful : Faithful m Modifier.read (fun o => .str o.tag) :=
  choice_faithful fun o => by cases o <;> rfl

theorem strings_faithful : Faithful m (list asText) Json.strings :=
  asText_faithful.list fun _ => rfl

theorem text?_faithful : Faithful m (orNull asText) (Json.ofOption .str) :=
  asText_faithful.ofOption fun _ => Json.noConfusion

theorem Name.encode_ne_null (n : Name) : n.encode ≠ .null := by
  cases n
  exact Json.noConfusion

theorem Name.readWithin_faithful (fuel : Nat) :
    Faithful fuel (Name.readWithin fuel) Name.encode := by
  induction fuel with
  | zero =>
    intro a n timing hn
    cases hn
  | succ fuel ih =>
    refine .record fun ⟨parts, kind, namespaced, written⟩ => ⟨_, rfl, fun n hm => ?_⟩
    cases namespaced <;> cases written <;>
      exact ((((hm.field strings_faithful rfl).map _).seq (hm.field NameKind.faithful rfl)).seq
        (hm.omissible ih Name.encode_ne_null rfl)).seq
        (hm.omissible ih Name.encode_ne_null rfl)

theorem Name.faithful : Faithful m Name.read Name.encode :=
  fun a n timing _ => Name.readWithin_faithful (n + 1) a n timing (Nat.lt_succ_self n)

theorem names_faithful : Faithful m (list Name.read) Json.names :=
  Name.faithful.list fun _ => rfl

theorem name?_faithful : Faithful m (orNull Name.read) (Json.ofOption Name.encode) :=
  Name.faithful.ofOption Name.encode_ne_null

theorem ImportItem.faithful : Faithful m ImportItem.read ImportItem.encode := by
  refine (Faithful.record fun ⟨name, alias?, kind⟩ => ⟨_, rfl, fun n hm => ?_⟩).mono
  exact (((hm.field Name.faithful rfl).map _).seq (hm.field text?_faithful rfl)).seq
    (hm.field ImportKind.faithful rfl)

theorem importItems_faithful :
    Faithful m (list ImportItem.read) (fun items => .arr (items.map ImportItem.encode)) :=
  ImportItem.faithful.list fun _ => rfl

theorem Literal.faithful : Faithful m Literal.read Literal.encode := by
  refine Faithful.mono fun a n timing hn hfits => ?_
  cases a with
  | string value => exact asText_faithful.oneOf hn rfl hfits
  | int value => exact asInt64_faithful.oneOf hn rfl hfits
  | float value =>
    obtain ⟨k, rfl, hmembers⟩ := hfits.of_obj
    obtain ⟨hnull, -⟩ := hmembers _ (List.mem_singleton_self _)
    -- what is not finite would stand as null, which is not complete
    cases hfinite : value.isFinite with
    | false =>
      rw [hfinite] at hnull
      exact absurd rfl hnull
    | true =>
      rw [Literal.encode, if_pos hfinite]
      rfl

theorem TypeHint.encode_ne_null (t : TypeHint) : t.encode ≠ .null := by
  cases t <;> exact Json.noConfusion

theorem TypeHint.readWithin_faithful (fuel : Nat) :
    Faithful fuel (TypeHint.readWithin fuel) TypeHint.encode := by
  induction fuel with
  | zero =>
    intro a n timing hn
    cases hn
  | succ fuel ih =>
    intro a n timing hn hfits
    cases a with
    | name name => exact Name.faithful.oneOf hn rfl hfits
    | builtin name => exact asText_faithful.oneOf hn rfl hfits
    | nullable inner => exact ih.oneOf hn rfl hfits

theorem TypeHint.faithful : Faithful m TypeHint.read TypeHint.encode :=
  fun a n timing _ => TypeHint.readWithin_faithful (n + 1) a n timing (Nat.lt_succ_self n)

theorem typeHint?_faithful : Faithful m (orNull TypeHint.read) Json.typeHint? :=
  TypeHint.faithful.ofOption TypeHint.encode_ne_null

def Adaptation.tag : Adaptation → String
  | .rename .. => "alias"
  | .precedence .. => "precedence"

theorem Adaptation.tag_known (a : Adaptation) : a.tag ∈ Adaptation.tags.known := by
  cases a <;> simp [Adaptation.tag, Adaptation.tags]

theorem Adaptation.faithful : Faithful m Adaptation.read Adaptation.encode := by
  refine (Faithful.inlineTagged Adaptation.tag (fun a => Or.inl a.tag_known) fun a => ?_).mono
  cases a with
  | rename traitName method newModifier newName =>
    refine ⟨_, rfl, rfl, fun n hm => ?_⟩
    exact ((((hm.field name?_faithful rfl).map _).seq (hm.field asText_faithful rfl)).seq
      (hm.field (Modifier.faithful.ofOption fun _ => Json.noConfusion) rfl)).seq
      (hm.field text?_faithful rfl)
  | precedence traitName method insteadof =>
    refine ⟨_, rfl, rfl, fun n hm => ?_⟩
    exact (((hm.field Name.faithful rfl).map _).seq (hm.field asText_faithful rfl)).seq
      (hm.field names_faithful rfl)

theorem adaptations_faithful :
    Faithful m (list Adaptation.read) (fun as => .arr (as.map Adaptation.encode)) :=
  Adaptation.faithful.list fun _ => rfl

theorem eq_map_of_cons {α β : Type} {f : List α → List β} {g : α → β} (hnil : f [] = [])
    (hcons : ∀ a as, f (a :: as) = g a :: f as) (as : List α) : f as = as.map g := by
  induction as with
  | nil => exact hnil
  | cons a as ih => rw [hcons, ih, List.map_cons]

theorem Stmt.encodeList_eq (ss : List Stmt) : Stmt.encodeList ss = ss.map Stmt.encode :=
  eq_map_of_cons rfl (fun _ _ => rfl) ss

theorem Expr.encodeList_eq (es : List Expr) : Expr.encodeList es = es.map Expr.encode :=
  eq_map_of_cons rfl (fun _ _ => rfl) es

theorem Param.encodeList_eq (ps : List Param) : Param.encodeList ps = ps.map Param.encode :=
  eq_map_of_cons rfl (fun _ _ => rfl) ps

theorem Catch.encodeList_eq (cs : List Catch) : Catch.encodeList cs = cs.map Catch.encode :=
  eq_map_of_cons rfl (fun _ _ => rfl) cs

theorem ConstItem.encodeList_eq (is : List ConstItem) :
    ConstItem.encodeList is = is.map ConstItem.encode :=
  eq_map_of_cons rfl (fun _ _ => rfl) is

theorem ElseIf.encodeList_eq (es : List ElseIf) : ElseIf.encodeList es = es.map ElseIf.encode :=
  eq_map_of_cons rfl (fun _ _ => rfl) es

theorem Case.encodeList_eq (cs : List Case) : Case.encodeList cs = cs.map Case.encode :=
  eq_map_of_cons rfl (fun _ _ => rfl) cs

theorem StaticVar.encodeList_eq (vs : List StaticVar) :
    StaticVar.encodeList vs = vs.map StaticVar.encode :=
  eq_map_of_cons rfl (fun _ _ => rfl) vs

theorem ArrayItem.encodeList_eq (is : List ArrayItem) :
    ArrayItem.encodeList is = is.map ArrayItem.encode :=
  eq_map_of_cons rfl (fun _ _ => rfl) is

theorem MatchArm.encodeList_eq (as : List MatchArm) :
    MatchArm.encodeList as = as.map MatchArm.encode :=
  eq_map_of_cons rfl (fun _ _ => rfl) as

theorem Arg.encodeList_eq (as : List Arg) : Arg.encodeList as = as.map Arg.encode :=
  eq_map_of_cons rfl (fun _ _ => rfl) as

theorem Stmt.tag_known (s : Stmt) : s.tag ∈ Stmt.tags.known := by
  cases s <;> simp [Stmt.tag, Stmt.tags]

theorem Expr.encode_ne_null (e : Expr) : e.encode ≠ .null := by
  cases e <;> exact Json.noConfusion

/-- The readers of what is nested in a layer. -/
structure Layer (m : Nat) (stmt : Reader Stmt) (expr : Reader Expr) : Prop where
  stmt : Faithful m stmt Stmt.encode
  expr : Faithful m expr Expr.encode

namespace Layer

variable (h : Layer m stmt expr)

include h

theorem stmts : Faithful m (list stmt) (fun ss => .arr (Stmt.encodeList ss)) :=
  h.stmt.list Stmt.encodeList_eq

theorem exprs : Faithful m (list expr) (fun es => .arr (Expr.encodeList es)) :=
  h.expr.list Expr.encodeList_eq

theorem stmts? : Faithful m (orNull (list stmt)) Stmt.encodeList? :=
  h.stmts.orNull rfl (fun _ => rfl) fun _ => Json.noConfusion

theorem expr? : Faithful m (orNull expr) Expr.encode? :=
  h.expr.orNull rfl (fun _ => rfl) Expr.encode_ne_null

theorem exprs? : Faithful m (orNull (list expr)) Expr.encodeList? :=
  h.exprs.orNull rfl (fun _ => rfl) fun _ => Json.noConfusion

theorem classDecl : Faithful m (ClassDecl.read stmt) ClassDecl.encode := by
  refine Faithful.mono (.record ?_)
  rintro ⟨name, namespaced, parent, interfaces, body⟩
  refine ⟨_, rfl, fun n hm => ?_⟩
  cases namespaced <;>
    exact (((((hm.field text?_faithful rfl).map _).seq
      (hm.omissible Name.faithful Name.encode_ne_null rfl)).seq (hm.field name?_faithful rfl)).seq
      (hm.field names_faithful rfl)).seq (hm.field h.stmts rfl)

theorem params : Faithful m (list (Param.read expr)) (fun ps => .arr (Param.encodeList ps)) := by
  refine Faithful.list (Faithful.mono ?_) Param.encodeList_eq
  refine .record ?_
  rintro ⟨name, type, default, byRef, variadic⟩
  refine ⟨_, rfl, fun n hm => ?_⟩
  exact (((((hm.field asText_faithful rfl).map _).seq (hm.field typeHint?_faithful rfl)).seq
    (hm.field h.expr? rfl)).seq (hm.field asBoolean_faithful rfl)).seq
    (hm.field asBoolean_faithful rfl)

theorem catches : Faithful m (list (Catch.read stmt)) (fun cs => .arr (Catch.encodeList cs)) := by
  refine Faithful.list (Faithful.mono ?_) Catch.encodeList_eq
  refine .record ?_
  rintro ⟨types, var, body⟩
  refine ⟨_, rfl, fun n hm => ?_⟩
  exact (((hm.field names_faithful rfl).map _).seq (hm.field asText_faithful rfl)).seq
    (hm.field h.stmts rfl)

theorem constItems :
    Faithful m (list (ConstItem.read expr)) (fun is => .arr (ConstItem.encodeList is)) := by
  refine Faithful.list (Faithful.mono ?_) ConstItem.encodeList_eq
  refine .record ?_
  rintro ⟨name, namespaced, value⟩
  refine ⟨_, rfl, fun n hm => ?_⟩
  cases namespaced <;>
    exact (((hm.field asText_faithful rfl).map _).seq
      (hm.omissible Name.faithful Name.encode_ne_null rfl)).seq (hm.field h.expr rfl)

theorem elseIfs :
    Faithful m (list (ElseIf.read stmt expr)) (fun es => .arr (ElseIf.encodeList es)) := by
  refine Faithful.list (Faithful.mono ?_) ElseIf.encodeList_eq
  refine .record ?_
  rintro ⟨cond, body⟩
  refine ⟨_, rfl, fun n hm => ?_⟩
  exact ((hm.field h.expr rfl).map _).seq (hm.field h.stmts rfl)

theorem cases :
    Faithful m (list (Case.read stmt expr)) (fun cs => .arr (Case.encodeList cs)) := by
  refine Faithful.list (Faithful.mono ?_) Case.encodeList_eq
  refine .record ?_
  rintro ⟨cond, body⟩
  refine ⟨_, rfl, fun n hm => ?_⟩
  exact ((hm.field h.expr? rfl).map _).seq (hm.field h.stmts rfl)

theorem staticVars :
    Faithful m (list (StaticVar.read expr)) (fun vs => .arr (StaticVar.encodeList vs)) := by
  refine Faithful.list (Faithful.mono ?_) StaticVar.encodeList_eq
  refine .record ?_
  rintro ⟨name, default⟩
  refine ⟨_, rfl, fun n hm => ?_⟩
  exact ((hm.field asText_faithful rfl).map _).seq (hm.field h.expr? rfl)

theorem arrayItems :
    Faithful m (list (ArrayItem.read expr)) (fun is => .arr (ArrayItem.encodeList is)) := by
  refine Faithful.list (Faithful.mono ?_) ArrayItem.encodeList_eq
  refine .record ?_
  rintro ⟨key, value⟩
  refine ⟨_, rfl, fun n hm => ?_⟩
  exact ((hm.field h.expr? rfl).map _).seq (hm.field h.expr rfl)

theorem matchArms :
    Faithful m (list (MatchArm.read expr)) (fun as => .arr (MatchArm.encodeList as)) := by
  refine Faithful.list (Faithful.mono ?_) MatchArm.encodeList_eq
  refine .record ?_
  rintro ⟨conds, body⟩
  refine ⟨_, rfl, fun n hm => ?_⟩
  exact ((hm.field h.exprs? rfl).map _).seq (hm.field h.expr rfl)

theorem args : Faithful m (list (Arg.read expr)) (fun as => .arr (Arg.encodeList as)) := by
  refine Faithful.list (Faithful.mono ?_) Arg.encodeList_eq
  refine .record ?_
  rintro ⟨value, byRef, unpack⟩
  refine ⟨_, rfl, fun n hm => ?_⟩
  exact (((hm.field h.expr rfl).map _).seq (hm.field asBoolean_faithful rfl)).seq
    (hm.field asBoolean_faithful rfl)

theorem ident {plainWord computedWord : String} (hw : (computedWord == plainWord) = false) :
    Faithful m (Ident.read expr plainWord computedWord) (Ident.encode plainWord computedWord) := by
  refine Faithful.mono fun i n timing hn hfits => ?_
  cases i with
  | plain text =>
    refine asText_faithful.oneOf hn ?_ hfits
    rw [List.lookup_cons, beq_self_eq_true]
  | computed e =>
    refine h.expr.oneOf hn ?_ hfits
    rw [List.lookup_cons, hw, List.lookup_cons, beq_self_eq_true]

theorem callee : Faithful m (Callee.read expr) Callee.encode := by
  refine Faithful.mono fun c n timing hn hfits => ?_
  cases c with
  | name name => exact Name.faithful.oneOf hn rfl hfits
  | computed e => exact h.expr.oneOf hn rfl hfits

theorem classRef : Faithful m (ClassRef.read stmt expr) ClassRef.encode := by
  refine Faithful.mono fun c n timing hn hfits => ?_
  cases c with
  | name name => exact Name.faithful.oneOf hn rfl hfits
  | computed e => exact h.expr.oneOf hn rfl hfits
  | anonymous decl => exact h.classDecl.oneOf hn rfl hfits

theorem exprLayer : Faithful (m + 1) (Expr.readLayer stmt expr) Expr.encode := by
  refine Faithful.inlineTagged Expr.tag (fun _ => Or.inr rfl) fun e => ?_
  cases e <;> refine ⟨_, rfl, rfl, fun n hm => ?_⟩
  case «variable» => exact (hm.field (h.ident rfl) rfl).map _
  case literal => exact (hm.field Literal.faithful rfl).map _
  case array => exact (hm.field h.arrayItems rfl).map _
  case assign => exact ((hm.field h.expr rfl).map _).seq (hm.field h.expr rfl)
  case binary =>
    exact (((hm.field BinaryOp.faithful rfl).map _).seq (hm.field h.expr rfl)).seq
      (hm.field h.expr rfl)
  case call => exact ((hm.field h.callee rfl).map _).seq (hm.field h.args rfl)
  case methodCall =>
    exact (((hm.field h.expr rfl).map _).seq (hm.field (h.ident rfl) rfl)).seq
      (hm.field h.args rfl)
  case staticCall =>
    exact (((hm.field h.classRef rfl).map _).seq (hm.field (h.ident rfl) rfl)).seq
      (hm.field h.args rfl)
  case propertyFetch => exact ((hm.field h.expr rfl).map _).seq (hm.field (h.ident rfl) rfl)
  case staticPropertyFetch =>
    exact ((hm.field h.classRef rfl).map _).seq (hm.field (h.ident rfl) rfl)
  case classConstFetch => exact ((hm.field h.classRef rfl).map _).seq (hm.field asText_faithful rfl)
  case constFetch => exact (hm.field Name.faithful rfl).map _
  case new => exact ((hm.field h.classRef rfl).map _).seq (hm.field h.args rfl)
  case instanceOf => exact ((hm.field h.expr rfl).map _).seq (hm.field h.classRef rfl)
  case closure =>
    exact (((((hm.field h.params rfl).map _).seq (hm.field strings_faithful rfl)).seq
      (hm.field typeHint?_faithful rfl)).seq (hm.field h.stmts rfl)).seq
      (hm.field asBoolean_faithful rfl)
  case arrowFunction =>
    exact ((((hm.field h.params rfl).map _).seq (hm.field typeHint?_faithful rfl)).seq
      (hm.field h.expr rfl)).seq (hm.field asBoolean_faithful rfl)
  case ternary =>
    exact (((hm.field h.expr rfl).map _).seq (hm.field h.expr? rfl)).seq (hm.field h.expr rfl)
  case index => exact ((hm.field h.expr rfl).map _).seq (hm.field h.expr? rfl)
  case unary => exact ((hm.field UnaryOp.faithful rfl).map _).seq (hm.field h.expr rfl)
  case isset => exact (hm.field h.exprs rfl).map _
  case empty => exact (hm.field h.expr rfl).map _
  case matchOn => exact ((hm.field h.expr rfl).map _).seq (hm.field h.matchArms rfl)
  case unknown => exact .pure _

omit h in
theorem besideTag {s : Stmt} {node : Json} (hs : s.encode = s.tagged node) (hn : n < m + 1)
    (hf : Fits n s.encode) (hread : ∀ k, k < m → Fits k node →
      (Stmt.content stmt expr).read s.tag timing k node = .ok s) :
    Stmt.readLayer stmt expr timing n s.encode = .ok s := by
  rw [hs] at hf ⊢
  obtain ⟨k, rfl, hm⟩ := hf.around hn
  exact besideTagged_content s.tag_known
    (hread k hm.below (hm.fits _ (List.mem_cons_of_mem _ List.mem_cons_self)))

theorem stmtLayer : Faithful (m + 1) (Stmt.readLayer stmt expr) Stmt.encode := by
  intro s n timing hn hfits
  cases s
  case nop =>
    obtain ⟨k, rfl, -⟩ := hfits.of_obj
    exact besideTagged_absent (Stmt.tag_known .nop) rfl
  all_goals refine besideTag rfl hn hfits fun k hk hnode => ?_
  case classDecl => exact congrArg (Except.map Stmt.classDecl) (h.classDecl _ k timing hk hnode)
  case functionDecl name namespaced params returnType body =>
    refine record_of_fits (fun j hm => ?_) (Nat.lt_succ_of_lt hk) hnode
    cases namespaced <;>
      exact (((((hm.field asText_faithful rfl).map _).seq
        (hm.omissible Name.faithful Name.encode_ne_null rfl)).seq (hm.field h.params rfl)).seq
        (hm.field typeHint?_faithful rfl)).seq (hm.field h.stmts rfl)
  case expression => exact congrArg (Except.map Stmt.expression) (h.expr _ k timing hk hnode)
  case echo => exact congrArg (Except.map Stmt.echo) (h.exprs _ k timing hk hnode)
  case ret => exact congrArg (Except.map Stmt.ret) (h.expr? _ k timing hk hnode)
  case throw => exact congrArg (Except.map Stmt.throw) (h.expr _ k timing hk hnode)
  all_goals refine namedRecord_of_fits (fun j hm => ?_) (Nat.lt_succ_of_lt hk) hnode
  case namespaceDecl => exact ((hm.field name?_faithful rfl).map _).seq (hm.field h.stmts rfl)
  case useImport =>
    exact ((hm.field ImportKind.faithful rfl).map _).seq (hm.field importItems_faithful rfl)
  case useGroup =>
    exact (((hm.field ImportKind.faithful rfl).map _).seq (hm.field Name.faithful rfl)).seq
      (hm.field importItems_faithful rfl)
  case interfaceDecl name namespaced parents body =>
    cases namespaced <;>
      exact ((((hm.field asText_faithful rfl).map _).seq
        (hm.omissible Name.faithful Name.encode_ne_null rfl)).seq (hm.field names_faithful rfl)).seq
        (hm.field h.stmts rfl)
  case traitDecl name namespaced body =>
    cases namespaced <;>
      exact (((hm.field asText_faithful rfl).map _).seq
        (hm.omissible Name.faithful Name.encode_ne_null rfl)).seq (hm.field h.stmts rfl)
  case method =>
    exact ((((hm.field asText_faithful rfl).map _).seq (hm.field h.params rfl)).seq
      (hm.field typeHint?_faithful rfl)).seq (hm.field h.stmts? rfl)
  case property => exact ((hm.field asText_faithful rfl).map _).seq (hm.field h.expr? rfl)
  case classConst => exact (hm.field h.constItems rfl).map _
  case constDecl => exact (hm.field h.constItems rfl).map _
  case traitUse =>
    exact ((hm.field names_faithful rfl).map _).seq (hm.field adaptations_faithful rfl)
  case ifElse =>
    exact ((((hm.field h.expr rfl).map _).seq (hm.field h.stmts rfl)).seq
      (hm.field h.elseIfs rfl)).seq (hm.field h.stmts? rfl)
  case whileLoop => exact ((hm.field h.expr rfl).map _).seq (hm.field h.stmts rfl)
  case doWhile => exact ((hm.field h.stmts rfl).map _).seq (hm.field h.expr rfl)
  case forLoop =>
    exact ((((hm.field h.exprs rfl).map _).seq (hm.field h.exprs rfl)).seq
      (hm.field h.exprs rfl)).seq (hm.field h.stmts rfl)
  case switch => exact ((hm.field h.expr rfl).map _).seq (hm.field h.cases rfl)
  case foreach =>
    exact ((((hm.field h.expr rfl).map _).seq (hm.field h.expr? rfl)).seq
      (hm.field h.expr rfl)).seq (hm.field h.stmts rfl)
  case tryCatch =>
    exact (((hm.field h.stmts rfl).map _).seq (hm.field h.catches rfl)).seq
      (hm.field h.stmts? rfl)
  case static => exact (hm.field h.staticVars rfl).map _
  case global => exact (hm.field h.exprs rfl).map _
  case unset => exact (hm.field h.exprs rfl).map _

end Layer

/-- The induction is over the number of layers: what is nested in one is read by the readers of the
layers below. -/
theorem readWithin_faithful (fuel : Nat) :
    Layer fuel (Stmt.readWithin fuel) (Expr.readWithin fuel) := by
  induction fuel with
  | zero =>
    constructor <;>
    · intro a n timing hn
      cases hn
  | succ fuel ih => exact ⟨ih.stmtLayer, ih.exprLayer⟩

theorem Stmt.faithful : Faithful m Stmt.read Stmt.encode :=
  fun s n timing _ => (readWithin_faithful (n + 1)).stmt s n timing (Nat.lt_succ_self n)

theorem Tree.decode_of_fits {t : Tree} (h : Fits maxLevels t.encode) :
    Tree.decode t.encode = .ok t := by
  have hlist : Faithful (maxLevels + 1) (list Stmt.read) Tree.encode :=
    Stmt.faithful.list fun _ => rfl
  rw [Tree.decode, hlist t maxLevels .prompt (Nat.lt_succ_self _) h]

end SymbolUsage
