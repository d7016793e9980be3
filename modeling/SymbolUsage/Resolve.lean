import SymbolUsage.Scope
import SymbolUsage.Walk

/-! Resolving the names of a tree in place, in the scope that the walk has built up so far. -/
namespace SymbolUsage

structure Options where
  /-- Keep each name as it was written beside what it became. -/
  keepWritten : Bool := false
deriving DecidableEq

namespace Resolve

/-- A step that may fail. Once one has failed, later ones leave things as they are. -/
abbrev Attempt := StateM (Option Error)

def attempt {α : Type} (f : α → Except Error α) (a : α) : Attempt α := fun failed =>
  match failed with
  | some e => (a, some e)
  | none =>
    match f a with
    | .ok b => (b, none)
    | .error e => (a, some e)

variable (o : Options) (s : Scope)

/-- What takes the place of `name` once it has been resolved. -/
def keeping (name resolved : Name) : Name :=
  if o.keepWritten ∧ (resolved.kind ≠ name.kind ∨ resolved.parts ≠ name.parts) then
    { resolved with written := some { name with written := none } }
  else resolved

def className : Name → Attempt Name :=
  attempt fun name => (s.resolveClass name).map (keeping o name)

def otherName (space : SymbolSpace) (name : Name) : Name :=
  keeping o name (s.resolveOther space name)

/-- The full name of a declaration. -/
def declaration (short : String) : Option Name → Attempt (Option Name) :=
  attempt fun _ => .ok (some (s.declared short))

def typeHint : TypeHint → Attempt TypeHint
  | .name n => do return .name (← className o s n)
  | .builtin n => return .builtin n
  | .nullable inner => do return .nullable (← typeHint inner)

def classRef : ClassRef → Attempt ClassRef
  | .name n => do return .name (← className o s n)
  | cls => return cls

def classDecl (c : ClassDecl) : Attempt ClassDecl := do
  let parent ← visitOption (className o s) c.parent
  let interfaces ← visitList (className o s) c.interfaces
  let namespaced ←
    match c.name with
    | some short => declaration s short c.namespaced
    | none => pure c.namespaced
  return { c with parent, interfaces, namespaced }

def adaptation : Adaptation → Attempt Adaptation
  | .rename traitName method newModifier newName => do
    return .rename (← visitOption (className o s) traitName) method newModifier newName
  | .precedence traitName method insteadof => do
    return .precedence (← className o s traitName) method (← visitList (className o s) insteadof)

def constItem (i : ConstItem) : Attempt ConstItem := do
  return { i with namespaced := ← declaration s i.name i.namespaced }

/-- The names of a statement's own, in the order in which they are resolved. -/
def stmt : Stmt → Attempt Stmt
  | .classDecl decl => do return .classDecl (← classDecl o s decl)
  | .interfaceDecl name namespaced parents body => do
    let parents ← visitList (className o s) parents
    return .interfaceDecl name (← declaration s name namespaced) parents body
  | .traitDecl name namespaced body => do
    return .traitDecl name (← declaration s name namespaced) body
  | .functionDecl name namespaced params returnType body => do
    return .functionDecl name (← declaration s name namespaced) params
      (← visitOption (typeHint o s) returnType) body
  | .method name params returnType body => do
    return .method name params (← visitOption (typeHint o s) returnType) body
  | .constDecl items => do return .constDecl (← visitList (constItem s) items)
  | .traitUse traits adaptations => do
    return .traitUse (← visitList (className o s) traits)
      (← visitList (adaptation o s) adaptations)
  | other => return other

/-- The names of an expression's own. -/
def expr : Expr → Attempt Expr
  | .staticCall cls name args => do return .staticCall (← classRef o s cls) name args
  | .staticPropertyFetch cls name => do return .staticPropertyFetch (← classRef o s cls) name
  | .classConstFetch cls name => do return .classConstFetch (← classRef o s cls) name
  | .new cls args => do return .new (← classRef o s cls) args
  | .instanceOf subject cls => do return .instanceOf subject (← classRef o s cls)
  | .call (.name n) args => return .call (.name (otherName o s .function n)) args
  | .constFetch n => return .constFetch (otherName o s .constant n)
  | .closure params uses returnType body isStatic => do
    return .closure params uses (← visitOption (typeHint o s) returnType) body isStatic
  | .arrowFunction params returnType body isStatic => do
    return .arrowFunction params (← visitOption (typeHint o s) returnType) body isStatic
  | other => return other

def node : (k : NodeKind) → Node k → Attempt (Node k)
  | .stmt, n => stmt o s n
  | .expr, n => expr o s n
  | .catchClause, n => do return { n with types := ← visitList (className o s) n.types }
  | .param, n => do return { n with type := ← visitOption (typeHint o s) n.type }
  | .anonymousClass, n => classDecl o s n

/-- The scope after a node has been entered. There is no leaving: it lasts until the next
namespace. -/
def scopeAfter : (k : NodeKind) → Node k → Scope × Option Error
  | .stmt, .namespaceDecl name _ => (Scope.entering name, none)
  | .stmt, .useImport kind items => s.bindAll kind none items
  | .stmt, .useGroup kind stem items => s.bindAll kind (some stem) items
  | _, _ => (s, none)

end Resolve

/-- Starts each walk in the global namespace. -/
def resolver (o : Options) : Visitor Scope where
  before t _ := ((t, Scope.entering none), .ok none)
  enter k n s :=
    let (s, failed) := Resolve.scopeAfter s k n
    let (n, failed) := Resolve.node o s k n failed
    ((n, s), match failed with
      | some e => .error e
      | none => .ok .proceed)

end SymbolUsage
