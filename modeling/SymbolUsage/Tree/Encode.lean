import SymbolUsage.Tree.Node
import SymbolUsage.Tree.Tag

/-! A tree as JSON. Every field is written, null for none, except that the full name of a
declaration is left out when there is none. -/
namespace SymbolUsage

def Literal.encode : Literal → Json
  | .string value => .obj [("string", .str value)]
  | .int value => .obj [("int", .int value.toInt)]
  | .float value => .obj [("float", if value.isFinite then .float value else .null)]

def TypeHint.encode : TypeHint → Json
  | .name n => .obj [("name", n.encode)]
  | .builtin n => .obj [("builtin", .str n)]
  | .nullable inner => .obj [("nullable", inner.encode)]

def Json.names (ns : List Name) : Json := .arr (ns.map Name.encode)

def Json.declaredName (n : Option Name) : List (String × Json) :=
  Json.present "namespaced_name" (n.map Name.encode)

def Json.typeHint? (t : Option TypeHint) : Json := Json.ofOption TypeHint.encode t

def Adaptation.encode : Adaptation → Json
  | .rename traitName method newModifier newName =>
    .obj [("kind", .str "alias"), ("trait_name", Json.ofOption Name.encode traitName),
      ("method", .str method), ("new_modifier", Json.ofOption (fun o => .str o.tag) newModifier),
      ("new_name", Json.ofOption .str newName)]
  | .precedence traitName method insteadof =>
    .obj [("kind", .str "precedence"), ("trait_name", traitName.encode), ("method", .str method),
      ("insteadof", Json.names insteadof)]

def Stmt.tagged (s : Stmt) (node : Json) : Json := .obj [("kind", .str s.tag), ("node", node)]

def Expr.tagged (e : Expr) (fields : List (String × Json)) : Json :=
  .obj (("kind", .str e.tag) :: fields)

mutual

def Stmt.encode : Stmt → Json
  | s@(.namespaceDecl name body) =>
    s.tagged <| .obj [("name", Json.ofOption Name.encode name),
      ("stmts", .arr (Stmt.encodeList body))]
  | s@(.useImport kind items) =>
    s.tagged <| .obj [("use_kind", .str kind.tag),
      ("uses", .arr (items.map ImportItem.encode))]
  | s@(.useGroup kind stem items) =>
    s.tagged <| .obj [("use_kind", .str kind.tag), ("prefix", stem.encode),
      ("uses", .arr (items.map ImportItem.encode))]
  | s@(.classDecl decl) => s.tagged decl.encode
  | s@(.interfaceDecl name namespaced parents body) =>
    s.tagged <| .obj ([("name", .str name)] ++ Json.declaredName namespaced
      ++ [("extends", Json.names parents), ("stmts", .arr (Stmt.encodeList body))])
  | s@(.traitDecl name namespaced body) =>
    s.tagged <| .obj ([("name", .str name)] ++ Json.declaredName namespaced
      ++ [("stmts", .arr (Stmt.encodeList body))])
  | s@(.functionDecl name namespaced params returnType body) =>
    s.tagged <| .obj ([("name", .str name)] ++ Json.declaredName namespaced
      ++ [("params", .arr (Param.encodeList params)), ("return_type", Json.typeHint? returnType),
        ("stmts", .arr (Stmt.encodeList body))])
  | s@(.method name params returnType body) =>
    s.tagged <| .obj [("name", .str name), ("params", .arr (Param.encodeList params)),
      ("return_type", Json.typeHint? returnType), ("stmts", Stmt.encodeList? body)]
  | s@(.property name default) =>
    s.tagged <| .obj [("name", .str name), ("default", Expr.encode? default)]
  | s@(.classConst items) => s.tagged <| .obj [("consts", .arr (ConstItem.encodeList items))]
  | s@(.constDecl items) => s.tagged <| .obj [("consts", .arr (ConstItem.encodeList items))]
  | s@(.traitUse traits adaptations) =>
    s.tagged <| .obj [("traits", Json.names traits),
      ("adaptations", .arr (adaptations.map Adaptation.encode))]
  | s@(.expression e) => s.tagged e.encode
  | s@(.echo es) => s.tagged (.arr (Expr.encodeList es))
  | s@(.ret e) => s.tagged (Expr.encode? e)
  | s@(.ifElse cond body elseIfs elseBody) =>
    s.tagged <| .obj [("cond", cond.encode), ("stmts", .arr (Stmt.encodeList body)),
      ("else_ifs", .arr (ElseIf.encodeList elseIfs)),
      ("else_stmts", Stmt.encodeList? elseBody)]
  | s@(.whileLoop cond body) =>
    s.tagged <| .obj [("cond", cond.encode), ("stmts", .arr (Stmt.encodeList body))]
  | s@(.doWhile body cond) =>
    s.tagged <| .obj [("stmts", .arr (Stmt.encodeList body)), ("cond", cond.encode)]
  | s@(.forLoop init cond step body) =>
    s.tagged <| .obj [("init", .arr (Expr.encodeList init)),
      ("cond", .arr (Expr.encodeList cond)), ("step", .arr (Expr.encodeList step)),
      ("stmts", .arr (Stmt.encodeList body))]
  | s@(.switch cond cases) =>
    s.tagged <| .obj [("cond", cond.encode), ("cases", .arr (Case.encodeList cases))]
  | s@(.foreach subject key value body) =>
    s.tagged <| .obj [("expr", subject.encode), ("key_var", Expr.encode? key),
      ("value_var", value.encode), ("stmts", .arr (Stmt.encodeList body))]
  | s@(.tryCatch body catches finallyBody) =>
    s.tagged <| .obj [("stmts", .arr (Stmt.encodeList body)),
      ("catches", .arr (Catch.encodeList catches)), ("finally", Stmt.encodeList? finallyBody)]
  | s@(.throw e) => s.tagged e.encode
  | s@(.static vars) => s.tagged <| .obj [("vars", .arr (StaticVar.encodeList vars))]
  | s@(.global vars) => s.tagged <| .obj [("vars", .arr (Expr.encodeList vars))]
  | s@(.unset vars) => s.tagged <| .obj [("vars", .arr (Expr.encodeList vars))]
  | .nop => .obj [("kind", .str "nop")]

def Expr.encode : Expr → Json
  | e@(.variable name) => e.tagged [("name", name.encode "named" "dynamic")]
  | e@(.literal value) => e.tagged [("value", value.encode)]
  | e@(.array items) => e.tagged [("items", .arr (ArrayItem.encodeList items))]
  | e@(.assign target value) => e.tagged [("var", target.encode), ("expr", value.encode)]
  | e@(.binary op left right) =>
    e.tagged [("op", .str op.tag), ("left", left.encode), ("right", right.encode)]
  | e@(.call callee args) =>
    e.tagged [("name", callee.encode), ("args", .arr (Arg.encodeList args))]
  | e@(.methodCall object name args) =>
    e.tagged [("var", object.encode), ("name", name.encode "identifier" "expr"),
      ("args", .arr (Arg.encodeList args))]
  | e@(.staticCall cls name args) =>
    e.tagged [("class", cls.encode), ("name", name.encode "identifier" "expr"),
      ("args", .arr (Arg.encodeList args))]
  | e@(.propertyFetch object name) =>
    e.tagged [("var", object.encode), ("name", name.encode "identifier" "expr")]
  | e@(.staticPropertyFetch cls name) =>
    e.tagged [("class", cls.encode), ("name", name.encode "identifier" "expr")]
  | e@(.classConstFetch cls name) => e.tagged [("class", cls.encode), ("name", .str name)]
  | e@(.constFetch name) => e.tagged [("name", name.encode)]
  | e@(.new cls args) => e.tagged [("class", cls.encode), ("args", .arr (Arg.encodeList args))]
  | e@(.instanceOf subject cls) => e.tagged [("expr", subject.encode), ("class", cls.encode)]
  | e@(.closure params uses returnType body isStatic) =>
    e.tagged [("params", .arr (Param.encodeList params)), ("uses", Json.strings uses),
      ("return_type", Json.typeHint? returnType), ("stmts", .arr (Stmt.encodeList body)),
      ("is_static", .bool isStatic)]
  | e@(.arrowFunction params returnType body isStatic) =>
    e.tagged [("params", .arr (Param.encodeList params)),
      ("return_type", Json.typeHint? returnType), ("expr", body.encode),
      ("is_static", .bool isStatic)]
  | e@(.ternary cond ifTrue ifFalse) =>
    e.tagged [("cond", cond.encode), ("if_true", Expr.encode? ifTrue),
      ("if_false", ifFalse.encode)]
  | e@(.index base offset) => e.tagged [("var", base.encode), ("dim", Expr.encode? offset)]
  | e@(.unary op operand) => e.tagged [("op", .str op.tag), ("expr", operand.encode)]
  | e@(.isset vars) => e.tagged [("vars", .arr (Expr.encodeList vars))]
  | e@(.empty operand) => e.tagged [("expr", operand.encode)]
  | e@(.matchOn cond arms) =>
    e.tagged [("cond", cond.encode), ("arms", .arr (MatchArm.encodeList arms))]
  | e@.unknown => e.tagged []

def ClassDecl.encode : ClassDecl → Json
  | { name, namespaced, parent, interfaces, body } =>
    .obj ([("name", Json.ofOption .str name)] ++ Json.declaredName namespaced
      ++ [("extends", Json.ofOption Name.encode parent), ("implements", Json.names interfaces),
        ("stmts", .arr (Stmt.encodeList body))])

def Param.encode : Param → Json
  | { name, type, default, byRef, variadic } =>
    .obj [("name", .str name), ("ty", Json.typeHint? type), ("default", Expr.encode? default),
      ("by_ref", .bool byRef), ("variadic", .bool variadic)]

def Catch.encode : Catch → Json
  | { types, var, body } =>
    .obj [("types", Json.names types), ("var", .str var), ("stmts", .arr (Stmt.encodeList body))]

def ConstItem.encode : ConstItem → Json
  | { name, namespaced, value } =>
    .obj ([("name", .str name)] ++ Json.declaredName namespaced ++ [("value", value.encode)])

def ElseIf.encode : ElseIf → Json
  | { cond, body } => .obj [("cond", cond.encode), ("stmts", .arr (Stmt.encodeList body))]

def Case.encode : Case → Json
  | { cond, body } => .obj [("cond", Expr.encode? cond), ("stmts", .arr (Stmt.encodeList body))]

def StaticVar.encode : StaticVar → Json
  | { name, default } => .obj [("name", .str name), ("default", Expr.encode? default)]

def ArrayItem.encode : ArrayItem → Json
  | { key, value } => .obj [("key", Expr.encode? key), ("value", value.encode)]

def MatchArm.encode : MatchArm → Json
  | { conds, body } => .obj [("conds", Expr.encodeList? conds), ("body", body.encode)]

def Arg.encode : Arg → Json
  | { value, byRef, unpack } =>
    .obj [("value", value.encode), ("by_ref", .bool byRef), ("unpack", .bool unpack)]

/-- The two words tell a plain name from a computed one. -/
def Ident.encode (plainWord computedWord : String) : Ident → Json
  | .plain text => .obj [(plainWord, .str text)]
  | .computed e => .obj [(computedWord, e.encode)]

def Callee.encode : Callee → Json
  | .name n => .obj [("name", n.encode)]
  | .computed e => .obj [("expr", e.encode)]

def ClassRef.encode : ClassRef → Json
  | .name n => .obj [("name", n.encode)]
  | .computed e => .obj [("expr", e.encode)]
  | .anonymous decl => .obj [("anonymous", decl.encode)]

def Expr.encode? : Option Expr → Json
  | some e => e.encode
  | none => .null

def Stmt.encodeList? : Option (List Stmt) → Json
  | some ss => .arr (Stmt.encodeList ss)
  | none => .null

def Expr.encodeList? : Option (List Expr) → Json
  | some es => .arr (Expr.encodeList es)
  | none => .null

def Stmt.encodeList : List Stmt → List Json
  | [] => []
  | x :: xs => x.encode :: Stmt.encodeList xs

def Expr.encodeList : List Expr → List Json
  | [] => []
  | x :: xs => x.encode :: Expr.encodeList xs

def Param.encodeList : List Param → List Json
  | [] => []
  | x :: xs => x.encode :: Param.encodeList xs

def Catch.encodeList : List Catch → List Json
  | [] => []
  | x :: xs => x.encode :: Catch.encodeList xs

def ConstItem.encodeList : List ConstItem → List Json
  | [] => []
  | x :: xs => x.encode :: ConstItem.encodeList xs

def ElseIf.encodeList : List ElseIf → List Json
  | [] => []
  | x :: xs => x.encode :: ElseIf.encodeList xs

def Case.encodeList : List Case → List Json
  | [] => []
  | x :: xs => x.encode :: Case.encodeList xs

def StaticVar.encodeList : List StaticVar → List Json
  | [] => []
  | x :: xs => x.encode :: StaticVar.encodeList xs

def ArrayItem.encodeList : List ArrayItem → List Json
  | [] => []
  | x :: xs => x.encode :: ArrayItem.encodeList xs

def MatchArm.encodeList : List MatchArm → List Json
  | [] => []
  | x :: xs => x.encode :: MatchArm.encodeList xs

def Arg.encodeList : List Arg → List Json
  | [] => []
  | x :: xs => x.encode :: Arg.encodeList xs

end

def Tree.encode (t : Tree) : Json := .arr (t.map Stmt.encode)

def AnyNode.encode : AnyNode → Json
  | ⟨.stmt, s⟩ => Stmt.encode s
  | ⟨.expr, e⟩ => Expr.encode e
  | ⟨.catchClause, c⟩ => Catch.encode c
  | ⟨.param, p⟩ => Param.encode p
  | ⟨.anonymousClass, c⟩ => ClassDecl.encode c

end SymbolUsage
