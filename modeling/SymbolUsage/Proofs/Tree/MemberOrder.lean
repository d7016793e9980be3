import SymbolUsage.Proofs.Json.SteadyTags
import SymbolUsage.Tree.Decode

/-! Decoding a tree from reordered values. -/
namespace SymbolUsage

open Json

/-- The words that stand alone. -/
def bareWords : List String :=
  [NameKind.unqualified, .qualified, .fullyQualified, .relative].map NameKind.tag
    ++ [ImportKind.unspecified, .symbol, .function, .constant].map ImportKind.tag
    ++ BinaryOp.all.map BinaryOp.tag ++ UnaryOp.all.map UnaryOp.tag
    ++ Modifier.all.map Modifier.tag ++ Stmt.tags.known

variable {free : Nat → Json → Prop} {stmt : Reader Stmt} {expr : Reader Expr}

theorem NameKind.steady : Steady bareWords free NameKind.read := .choice (by decide)

theorem ImportKind.steady : Steady bareWords free ImportKind.read := .choice (by decide)

theorem BinaryOp.steady : Steady bareWords free BinaryOp.read := .choice (by decide)

theorem UnaryOp.steady : Steady bareWords free UnaryOp.read := .choice (by decide)

theorem Modifier.steady : Steady bareWords free Modifier.read := .choice (by decide)

theorem tooDeep_steady {α : Type} : Steady bareWords free (tooDeep : Reader α) :=
  fun _ _ _ _ _ _ => .of_ne nofun nofun

namespace Name

theorem readWithin_steady (fuel : Nat) : Steady bareWords free (readWithin fuel) := by
  induction fuel with
  | zero => exact tooDeep_steady
  | succ fuel ih =>
    exact ((((asText_steady.list.field.map _).seq NameKind.steady.field).seq ih.orNull.field).seq
      ih.orNull.field).record

theorem steady : Steady bareWords free Name.read :=
  fun timing timing' n => readWithin_steady (n + 1) timing timing' n

end Name

theorem ImportItem.steady : Steady bareWords free ImportItem.read :=
  (((Name.steady.field.map _).seq asText_steady.orNull.field).seq ImportKind.steady.field).record

theorem Literal.steady : Steady bareWords free Literal.read :=
  .oneOf (by simp [SteadyForm, Form.making, asText_steady.map, asInt64_steady.map,
    asDouble_steady.map])

namespace TypeHint

theorem readWithin_steady (fuel : Nat) : Steady bareWords free (readWithin fuel) := by
  induction fuel with
  | zero => exact tooDeep_steady
  | succ fuel ih =>
    exact .oneOf (by simp [SteadyForm, Form.making, Name.steady.map, asText_steady.map, ih.map])

theorem steady : Steady bareWords free TypeHint.read :=
  fun timing timing' n => readWithin_steady (n + 1) timing timing' n

end TypeHint

theorem Adaptation.steady : Steady bareWords free Adaptation.read := by
  refine .inlineTagged fun tag => ?_
  unfold Adaptation.readFields
  split
  · exact (((Name.steady.orNull.field.map _).seq asText_steady.field).seq
      Modifier.steady.orNull.field).seq asText_steady.orNull.field
  · exact ((Name.steady.field.map _).seq asText_steady.field).seq Name.steady.list.field

section

variable (hs : Steady bareWords free stmt) (he : Steady bareWords free expr)

include hs in
theorem ClassDecl.steady : Steady bareWords free (ClassDecl.read stmt) :=
  (((((asText_steady.orNull.field.map _).seq Name.steady.orNull.field).seq
    Name.steady.orNull.field).seq Name.steady.list.field).seq hs.list.field).record

include he in
theorem Param.steady : Steady bareWords free (Param.read expr) :=
  (((((asText_steady.field.map _).seq TypeHint.steady.orNull.field).seq he.orNull.field).seq
    asBoolean_steady.field).seq asBoolean_steady.field).record

include hs in
theorem Catch.steady : Steady bareWords free (Catch.read stmt) :=
  (((Name.steady.list.field.map _).seq asText_steady.field).seq hs.list.field).record

include he in
theorem ConstItem.steady : Steady bareWords free (ConstItem.read expr) :=
  (((asText_steady.field.map _).seq Name.steady.orNull.field).seq he.field).record

include hs he in
theorem ElseIf.steady : Steady bareWords free (ElseIf.read stmt expr) :=
  ((he.field.map _).seq hs.list.field).record

include hs he in
theorem Case.steady : Steady bareWords free (Case.read stmt expr) :=
  ((he.orNull.field.map _).seq hs.list.field).record

include he in
theorem StaticVar.steady : Steady bareWords free (StaticVar.read expr) :=
  ((asText_steady.field.map _).seq he.orNull.field).record

include he in
theorem ArrayItem.steady : Steady bareWords free (ArrayItem.read expr) :=
  ((he.orNull.field.map _).seq he.field).record

include he in
theorem MatchArm.steady : Steady bareWords free (MatchArm.read expr) :=
  ((he.list.orNull.field.map _).seq he.field).record

include he in
theorem Arg.steady : Steady bareWords free (Arg.read expr) :=
  (((he.field.map _).seq asBoolean_steady.field).seq asBoolean_steady.field).record

include he in
theorem Ident.steady (plainWord computedWord : String) :
    Steady bareWords free (Ident.read expr plainWord computedWord) :=
  .oneOf (by simp [SteadyForm, Form.making, asText_steady.map, he.map])

include he in
theorem Callee.steady : Steady bareWords free (Callee.read expr) :=
  .oneOf (by simp [SteadyForm, Form.making, Name.steady.map, he.map])

include hs he in
theorem ClassRef.steady : Steady bareWords free (ClassRef.read stmt expr) :=
  .oneOf (by simp [SteadyForm, Form.making, Name.steady.map, he.map, (ClassDecl.steady hs).map])

include hs he in
theorem Expr.readFields_steady (tag : String) :
    SteadyFields bareWords free (Expr.readFields stmt expr tag) := by
  have hclass := ClassRef.steady hs he
  unfold Expr.readFields
  split
  -- Each field is read by one of the readers above, or by one of lists or options of them.
  all_goals apply_rules [SteadyFields.pure, SteadyFields.seq, SteadyFields.map, Steady.field,
    Steady.orNull, Steady.list, asText_steady, asBoolean_steady, Name.steady, TypeHint.steady,
    Literal.steady, BinaryOp.steady, UnaryOp.steady, Ident.steady, Callee.steady, Arg.steady,
    ArrayItem.steady, Param.steady, MatchArm.steady]

include hs he in
theorem Expr.readLayer_steady : Steady bareWords free (Expr.readLayer stmt expr) :=
  .inlineTagged (Expr.readFields_steady hs he)

include hs he in
theorem Stmt.readFunction_steady : Steady bareWords free (Stmt.readFunction stmt expr) :=
  (((((asText_steady.field.map _).seq Name.steady.orNull.field).seq
    (Param.steady he).list.field).seq TypeHint.steady.orNull.field).seq hs.list.field).record

include hs he in
theorem Stmt.readFields_steady (tag : String) :
    SteadyFields bareWords free (Stmt.readFields stmt expr tag) := by
  unfold Stmt.readFields
  split
  all_goals apply_rules [SteadyFields.pure, SteadyFields.seq, SteadyFields.map, Steady.field,
    Steady.orNull, Steady.list, asText_steady, Name.steady, TypeHint.steady, ImportKind.steady,
    ImportItem.steady, Adaptation.steady, Param.steady, Catch.steady, ConstItem.steady,
    ElseIf.steady, Case.steady, StaticVar.steady]

theorem Stmt.readNothing_steady : Steady bareWords free Stmt.readNothing := by
  refine .of_literal ?_ ?_
  · intro timing timing' n v a ha
    cases n <;> cases v <;> first | exact ha | cases ha
  · intro timing n v a ha
    cases n <;> cases v <;> first | rfl | cases ha

include hs he in
theorem Stmt.content_steady (tag : String) :
    Steady bareWords free ((Stmt.content stmt expr).read tag) := by
  dsimp only [Stmt.content]
  split
  · exact Stmt.readNothing_steady
  · exact (ClassDecl.steady hs).map _
  · exact Stmt.readFunction_steady hs he
  · exact he.map _
  · exact he.list.map _
  · exact he.orNull.map _
  · exact he.map _
  · exact (Stmt.readFields_steady hs he _).namedRecord

include hs he in
theorem Stmt.readLayer_steady : Steady bareWords free (Stmt.readLayer stmt expr) :=
  .besideTagged (by decide) (Stmt.content_steady hs he)

end

/-- The induction is over the number of layers. -/
theorem readWithin_steady (fuel : Nat) :
    Steady bareWords free (Stmt.readWithin fuel) ∧
      Steady bareWords free (Expr.readWithin fuel) := by
  induction fuel with
  | zero => exact ⟨tooDeep_steady, tooDeep_steady⟩
  | succ fuel ih =>
    obtain ⟨hs, he⟩ := ih
    exact ⟨Stmt.readLayer_steady hs he, Expr.readLayer_steady hs he⟩

theorem Stmt.steady : Steady bareWords free Stmt.read :=
  fun timing timing' n => (readWithin_steady (n + 1)).1 timing timing' n

theorem Tree.agree_decode {v w : Json} (h : Reordered free maxLevels v w) :
    Agree (Careful bareWords free) (Tree.decode v) (Tree.decode w) :=
  (Stmt.steady.list .prompt .prompt maxLevels v w h).mono fun hc => ⟨hc, .inl rfl⟩

/-- The order of members never changes the tree that is decoded, if there is one in both orders.
And there is one in both or in neither, if only plain contents have changed sides with their
tags. -/
theorem Tree.decode_reordered (v w : Json) :
    (Reordered (fun _ _ => True) maxLevels v w →
      ∀ t t', Tree.decode v = .ok t → Tree.decode w = .ok t' → t = t') ∧
    (Reordered (fun n c => c.plain bareWords n) maxLevels v w →
      ∀ t, Tree.decode v = .ok t ↔ Tree.decode w = .ok t) := by
  constructor
  · intro h t t' ht ht'
    exact (Tree.agree_decode h).eq t t' ht ht'
  · intro h t
    exact (Tree.agree_decode h).iff (fun _ _ hc => hc) t

/-- Some members, in an object that is thrown, with the tag of the statement first or last. -/
def thrown (tagFirst : Bool) (members : List (String × Json)) : Json :=
  let tag := ("kind", .str "throw")
  let content := ("node", .obj members)
  .arr [.obj (if tagFirst then [tag, content] else [content, tag])]

theorem reordered_thrown {members members' : List (String × Json)}
    (h : Reordered free (maxLevels - 2) (.obj members) (.obj members'))
    (hf : free (maxLevels - 2) (.obj members)) :
    Reordered free maxLevels (thrown false members) (thrown true members') := by
  refine .singleton (.swap ⟨rfl, h⟩ ⟨rfl, .refl _ _⟩ fun z hz hkey => ?_)
  rcases List.mem_pair.mp hz with rfl | rfl
  · exact hf
  · exact absurd hkey (by decide)

theorem decode_thrown_literal :
    let v := thrown false [("value", .obj [("int", .int 3)]), ("kind", .str "literal")]
    let w := thrown true [("kind", .str "literal"), ("value", .obj [("int", .int 3)])]
    Reordered (fun _ _ => True) maxLevels v w ∧
      Reordered (fun n c => c.plain bareWords n) maxLevels v w ∧
      (∀ t, Tree.decode w = .ok t → [.throw (.literal (.int 3))] = t) ∧
      Tree.decode w = .ok [.throw (.literal (.int 3))] := by
  have hinner : ∀ free : Nat → Json → Prop, Reordered free (maxLevels - 2)
      (.obj [("value", .obj [("int", .int 3)]), ("kind", .str "literal")])
      (.obj [("kind", .str "literal"), ("value", .obj [("int", .int 3)])]) := by
    intro free
    refine .swap ⟨rfl, .refl _ _⟩ ⟨rfl, .refl _ _⟩ fun z hz hkey => ?_
    rcases List.mem_pair.mp hz with rfl | rfl <;> exact absurd hkey (by decide)
  have hany := reordered_thrown (hinner fun _ _ => True) trivial
  have hplain := reordered_thrown (hinner fun n c => c.plain bareWords n) (by decide)
  exact ⟨hany, hplain, fun t => (Tree.decode_reordered _ _).1 hany _ t rfl,
    ((Tree.decode_reordered _ _).2 hplain _).mp rfl⟩

/-- A number is taken for a tag only in what comes before the tag of the statement. -/
theorem decode_thrown_number :
    Reordered (fun _ _ => True) maxLevels (thrown false [("kind", .int 22)])
        (thrown true [("kind", .int 22)]) ∧
      Tree.decode (thrown false [("kind", .int 22)]) = .ok [.throw .unknown] ∧
      Tree.decode (thrown true [("kind", .int 22)]) =
        .error { cause := .wrongType (.integer 22) "variant identifier", path := [0, 1, 0] } :=
  ⟨reordered_thrown (.refl _ _) trivial, rfl, rfl⟩

end SymbolUsage
