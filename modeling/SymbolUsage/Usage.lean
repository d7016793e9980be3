import SymbolUsage.Resolve
import SymbolUsage.Tree.Preorder

/-! The symbols that a tree uses: their set, the shapes of node that use one, and collecting them
while names are resolved. -/
namespace SymbolUsage

variable {σ : Type}

/-- The used symbols, by canonical text. -/
abbrev UsageSet := Std.ExtTreeMap String Name

namespace UsageSet

variable (s : UsageSet)

/-- A name recorded again under the same text takes the place of the earlier one. -/
def record (name : Name) : UsageSet := s.insert name.display name

def recordAll (names : List Name) : UsageSet := names.foldl record s

/-- Canonical texts in the order of their code points. -/
def sortedNames : List String := s.keys

theorem getElem?_record (name : Name) (key : String) :
    (s.record name)[key]? = if name.display = key then some name else s[key]? := by
  simp only [record, Std.ExtTreeMap.getElem?_insert, Std.compare_eq_iff_eq]

theorem recordAll_append (names more : List Name) :
    s.recordAll (names ++ more) = (s.recordAll names).recordAll more :=
  List.foldl_append

end UsageSet

/-- The shapes of node that use a symbol. Computed targets use none that is known. -/
inductive UsageShape where
  /-- A class with its base and its interfaces. -/
  | classDecl (decl : ClassDecl)
  /-- An access to a static member or class constant, `new`, or `instanceof`. -/
  | classExpression (cls : ClassRef)
  | catchClause (clause : Catch)
  | functionCall (callee : Callee)
  | constantFetch (name : Name)
  | traitUse (traits : List Name) (adaptations : List Adaptation)

namespace UsageShape

def ofStmt : Stmt → Option UsageShape
  | .classDecl decl => some (.classDecl decl)
  | .traitUse traits adaptations => some (.traitUse traits adaptations)
  | _ => none

def ofExpr : Expr → Option UsageShape
  | .staticCall cls _ _ => some (.classExpression cls)
  | .staticPropertyFetch cls _ => some (.classExpression cls)
  | .classConstFetch cls _ => some (.classExpression cls)
  | .new cls _ => some (.classExpression cls)
  | .instanceOf _ cls => some (.classExpression cls)
  | .call callee _ => some (.functionCall callee)
  | .constFetch name => some (.constantFetch name)
  | _ => none

def classify : (k : NodeKind) → Node k → Option UsageShape
  | .stmt, s => ofStmt s
  | .expr, e => ofExpr e
  | .catchClause, c => some (.catchClause c)
  | .param, _ => none
  | .anonymousClass, c => some (.classDecl c)

def adaptationNames : Adaptation → List Name
  | .rename traitName .. => traitName.toList
  | .precedence traitName _ insteadof => traitName :: insteadof

/-- The symbols used, in the order in which they are recorded. An anonymous class counts where it
is met as a node. -/
def names : UsageShape → List Name
  | .classDecl decl => decl.parent.toList ++ decl.interfaces
  | .classExpression (.name n) => [n]
  | .classExpression _ => []
  | .catchClause clause => clause.types
  | .functionCall (.name n) => [n]
  | .functionCall (.computed _) => []
  | .constantFetch n => [n]
  | .traitUse traits adaptations => traits ++ adaptations.flatMap adaptationNames

end UsageShape

/-- What a node uses by itself, apart from its children. -/
def usedBy (k : NodeKind) (n : Node k) : List Name :=
  ((UsageShape.classify k n).map UsageShape.names).getD []

/-- Records what each node uses, as the inner visitor leaves it and before it is replaced. A node at
which the inner visitor fails counts for nothing. -/
def collecting (v : Visitor σ) : Visitor (σ × UsageSet) where
  before t s :=
    let ((t, inner), answer) := v.before t s.1
    ((t, (inner, s.2)), answer)
  enter k n s :=
    let ((n, inner), answer) := v.enter k n s.1
    match answer with
    | .ok visit => ((n, (inner, s.2.recordAll (usedBy k n))), .ok visit)
    | .error e => ((n, (inner, s.2)), .error e)

/-- A visitor that does not make trees deeper gets to the bottom of one: no node is further down
than there are nodes. -/
def traverseAll (v : Visitor σ) (t : Tree) (s : σ) : Walked σ := traverse v t.size t s

def resolve (o : Options) (t : Tree) : Walked Scope := traverseAll (resolver o) t {}

/-- One session of a collector that may have been used before: its scope starts afresh, its usages
are kept. -/
def collectMore (o : Options) (t : Tree) (s : Scope × UsageSet) : Walked (Scope × UsageSet) :=
  traverseAll (collecting (resolver o)) t s

def collect (o : Options) (t : Tree) : Walked (Scope × UsageSet) := collectMore o t ({}, ∅)

/-- The sessions of several trees, each on its own. -/
def collectEach (o : Options) (ts : List Tree) : List (Walked (Scope × UsageSet)) :=
  ts.map (collect o)

end SymbolUsage
