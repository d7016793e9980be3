import Mathlib.Logic.Basic
import SymbolUsage.Proofs.Tree.Rewrite
import SymbolUsage.Proofs.Tree.Slots

/-! Changing all the names of a tree, those of its namespaces and imports included. -/
namespace SymbolUsage

structure NameMap where
  name : Name → Name
  /-- For the full name of a declaration, which can be missing. -/
  declared : Option Name → Option Name

def NameMap.comp (g f : NameMap) : NameMap where
  name := g.name ∘ f.name
  declared := g.declared ∘ f.declared

variable (f g : NameMap)

def TypeHint.mapNames : TypeHint → TypeHint
  | .name n => .name (f.name n)
  | .builtin n => .builtin n
  | .nullable inner => .nullable inner.mapNames

def ClassRef.mapNames : ClassRef → ClassRef
  | .name n => .name (f.name n)
  | cls => cls

def Callee.mapNames : Callee → Callee
  | .name n => .name (f.name n)
  | callee => callee

def Adaptation.mapNames : Adaptation → Adaptation
  | .rename traitName method newModifier newName =>
    .rename (traitName.map f.name) method newModifier newName
  | .precedence traitName method insteadof =>
    .precedence (f.name traitName) method (insteadof.map f.name)

def ImportItem.mapNames (i : ImportItem) : ImportItem := { i with name := f.name i.name }

def ClassDecl.mapNames (c : ClassDecl) : ClassDecl :=
  { c with
    namespaced := f.declared c.namespaced
    parent := c.parent.map f.name
    interfaces := c.interfaces.map f.name }

def ConstItem.mapNames (i : ConstItem) : ConstItem :=
  { i with namespaced := f.declared i.namespaced }

def Stmt.mapNames : Stmt → Stmt
  | .namespaceDecl name body => .namespaceDecl (name.map f.name) body
  | .useImport kind items => .useImport kind (items.map (·.mapNames f))
  | .useGroup kind stem items => .useGroup kind (f.name stem) (items.map (·.mapNames f))
  | .classDecl decl => .classDecl (decl.mapNames f)
  | .interfaceDecl name namespaced parents body =>
    .interfaceDecl name (f.declared namespaced) (parents.map f.name) body
  | .traitDecl name namespaced body => .traitDecl name (f.declared namespaced) body
  | .functionDecl name namespaced params returnType body =>
    .functionDecl name (f.declared namespaced) params (returnType.map (·.mapNames f)) body
  | .method name params returnType body =>
    .method name params (returnType.map (·.mapNames f)) body
  | .classConst items => .classConst (items.map (·.mapNames f))
  | .constDecl items => .constDecl (items.map (·.mapNames f))
  | .traitUse traits adaptations =>
    .traitUse (traits.map f.name) (adaptations.map (·.mapNames f))
  | other => other

def Expr.mapNames : Expr → Expr
  | .call callee args => .call (callee.mapNames f) args
  | .staticCall cls name args => .staticCall (cls.mapNames f) name args
  | .staticPropertyFetch cls name => .staticPropertyFetch (cls.mapNames f) name
  | .classConstFetch cls name => .classConstFetch (cls.mapNames f) name
  | .constFetch name => .constFetch (f.name name)
  | .new cls args => .new (cls.mapNames f) args
  | .instanceOf subject cls => .instanceOf subject (cls.mapNames f)
  | .closure params uses returnType body isStatic =>
    .closure params uses (returnType.map (·.mapNames f)) body isStatic
  | .arrowFunction params returnType body isStatic =>
    .arrowFunction params (returnType.map (·.mapNames f)) body isStatic
  | other => other

def Node.mapNames : (k : NodeKind) → Node k → Node k
  | .stmt, s => Stmt.mapNames f s
  | .expr, e => Expr.mapNames f e
  | .catchClause, c => { c with types := c.types.map f.name }
  | .param, p => { p with type := p.type.map (·.mapNames f) }
  | .anonymousClass, c => ClassDecl.mapNames f c

def AnyNode.mapNames (n : AnyNode) : AnyNode := ⟨n.kind, Node.mapNames f n.kind n.node⟩

def NameMap.rewriting : Rewriting where
  own := Node.mapNames f

def Tree.mapNames (t : Tree) : Tree := t.rewrite f.rewriting

theorem TypeHint.mapNames_mapNames (t : TypeHint) :
    (t.mapNames f).mapNames g = t.mapNames (g.comp f) := by
  induction t with
  | name n => rfl
  | builtin n => rfl
  | nullable inner ih => exact congrArg TypeHint.nullable ih

theorem TypeHint.map_mapNames (t : Option TypeHint) :
    (t.map (·.mapNames f)).map (·.mapNames g) = t.map (·.mapNames (g.comp f)) := by
  simp only [Option.map_map, Function.comp_def, TypeHint.mapNames_mapNames]

theorem ClassRef.mapNames_mapNames (c : ClassRef) :
    (c.mapNames f).mapNames g = c.mapNames (g.comp f) := by
  cases c <;> rfl

theorem Callee.mapNames_mapNames (c : Callee) :
    (c.mapNames f).mapNames g = c.mapNames (g.comp f) := by
  cases c <;> rfl

theorem Adaptation.mapNames_mapNames (a : Adaptation) :
    (a.mapNames f).mapNames g = a.mapNames (g.comp f) := by
  cases a with
  | rename traitName method newModifier newName =>
    exact congrArg (Adaptation.rename · method newModifier newName) (Option.map_map ..)
  | precedence traitName method insteadof =>
    exact congrArg (Adaptation.precedence _ method) List.map_map

theorem Adaptation.map_mapNames (as : List Adaptation) :
    (as.map (·.mapNames f)).map (·.mapNames g) = as.map (·.mapNames (g.comp f)) := by
  simp only [List.map_map, Function.comp_def, Adaptation.mapNames_mapNames]

theorem ClassDecl.mapNames_mapNames (c : ClassDecl) :
    (c.mapNames f).mapNames g = c.mapNames (g.comp f) := by
  simp only [ClassDecl.mapNames, Option.map_map, List.map_map]
  rfl

theorem Stmt.mapNames_mapNames (s : Stmt) :
    (s.mapNames f).mapNames g = s.mapNames (g.comp f) := by
  cases s with
  | namespaceDecl name body => exact congrArg (Stmt.namespaceDecl · body) (Option.map_map ..)
  | useImport kind items => exact congrArg (Stmt.useImport kind) List.map_map
  | useGroup kind stem items => exact congrArg (Stmt.useGroup kind _) List.map_map
  | classDecl decl => exact congrArg Stmt.classDecl (decl.mapNames_mapNames f g)
  | interfaceDecl name namespaced parents body =>
    exact congrArg (Stmt.interfaceDecl name _ · body) List.map_map
  | functionDecl name namespaced params returnType body =>
    exact congrArg (Stmt.functionDecl name _ params · body) (TypeHint.map_mapNames f g returnType)
  | method name params returnType body =>
    exact congrArg (Stmt.method name params · body) (TypeHint.map_mapNames f g returnType)
  | classConst items => exact congrArg Stmt.classConst List.map_map
  | constDecl items => exact congrArg Stmt.constDecl List.map_map
  | traitUse traits adaptations =>
    exact congrArg₂ Stmt.traitUse List.map_map (Adaptation.map_mapNames f g adaptations)
  | _ => rfl

theorem Expr.mapNames_mapNames (e : Expr) :
    (e.mapNames f).mapNames g = e.mapNames (g.comp f) := by
  cases e with
  | call callee args => exact congrArg (Expr.call · args) (callee.mapNames_mapNames f g)
  | staticCall cls name args =>
    exact congrArg (Expr.staticCall · name args) (cls.mapNames_mapNames f g)
  | staticPropertyFetch cls name =>
    exact congrArg (Expr.staticPropertyFetch · name) (cls.mapNames_mapNames f g)
  | classConstFetch cls name =>
    exact congrArg (Expr.classConstFetch · name) (cls.mapNames_mapNames f g)
  | new cls args => exact congrArg (Expr.new · args) (cls.mapNames_mapNames f g)
  | instanceOf subject cls =>
    exact congrArg (Expr.instanceOf subject) (cls.mapNames_mapNames f g)
  | closure params uses returnType body isStatic =>
    exact congrArg (Expr.closure params uses · body isStatic)
      (TypeHint.map_mapNames f g returnType)
  | arrowFunction params returnType body isStatic =>
    exact congrArg (Expr.arrowFunction params · body isStatic)
      (TypeHint.map_mapNames f g returnType)
  | _ => rfl

theorem AnyNode.mapNames_mapNames (n : AnyNode) :
    (n.mapNames f).mapNames g = n.mapNames (g.comp f) := by
  obtain ⟨k, n⟩ := n
  refine congrArg (AnyNode.mk k) ?_
  cases k with
  | stmt => exact Stmt.mapNames_mapNames f g n
  | expr => exact Expr.mapNames_mapNames f g n
  | catchClause => exact congrArg (Catch.mk · n.var n.body) (List.map_map ..)
  | param =>
    exact congrArg (Param.mk n.name · n.default n.byRef n.variadic)
      (TypeHint.map_mapNames f g n.type)
  | anonymousClass => exact ClassDecl.mapNames_mapNames f g n

def Slot.mapNames : Slot → Slot
  | .className n => .className (f.name n)
  | .functionName n => .functionName (f.name n)
  | .constantName n => .constantName (f.name n)
  | .declared short full => .declared short (f.declared full)

theorem ConstItem.children_mapNames (items : List ConstItem) :
    (items.map (·.mapNames f)).flatMap ConstItem.children = items.flatMap ConstItem.children := by
  rw [List.flatMap_map]
  rfl

theorem Node.children_mapNames (k : NodeKind) (n : Node k) :
    AnyNode.children ⟨k, Node.mapNames f k n⟩ = AnyNode.children ⟨k, n⟩ := by
  cases k with
  | stmt =>
    cases n with
    | classConst items => exact ConstItem.children_mapNames f items
    | constDecl items => exact ConstItem.children_mapNames f items
    | _ => rfl
  | expr =>
    cases n with
    | call callee args => cases callee <;> rfl
    | staticCall cls name args => cases cls <;> rfl
    | staticPropertyFetch cls name => cases cls <;> rfl
    | classConstFetch cls name => cases cls <;> rfl
    | new cls args => cases cls <;> rfl
    | instanceOf subject cls => cases cls <;> rfl
    | _ => rfl
  | _ => rfl

theorem slots_classNames (names : List Name) :
    (names.map f.name).map Slot.className = (names.map Slot.className).map (·.mapNames f) := by
  rw [List.map_map, List.map_map]
  rfl

theorem TypeHint.slots_mapNames (t : TypeHint) :
    (t.mapNames f).slots = t.slots.map (·.mapNames f) := by
  induction t with
  | name n => rfl
  | builtin n => rfl
  | nullable inner ih => exact ih

theorem slots_type? (t : Option TypeHint) :
    (t.map (·.mapNames f)).toList.flatMap TypeHint.slots =
      (t.toList.flatMap TypeHint.slots).map (·.mapNames f) := by
  cases t with
  | none => rfl
  | some t => simpa using t.slots_mapNames f

theorem ClassRef.slots_mapNames (c : ClassRef) :
    (c.mapNames f).slots = c.slots.map (·.mapNames f) := by
  cases c <;> rfl

theorem ClassDecl.slots_mapNames (c : ClassDecl) :
    (c.mapNames f).slots = c.slots.map (·.mapNames f) := by
  obtain ⟨name, namespaced, parent, interfaces, body⟩ := c
  cases name <;> cases parent <;> simp [ClassDecl.mapNames, ClassDecl.slots, Slot.mapNames]

theorem Adaptation.slots_mapNames (a : Adaptation) :
    (a.mapNames f).slots = a.slots.map (·.mapNames f) := by
  cases a with
  | rename traitName _ _ _ => cases traitName <;> rfl
  | precedence traitName _ insteadof =>
    exact congrArg (Slot.className (f.name traitName) :: ·) (slots_classNames f insteadof)

theorem Stmt.slots_mapNames (s : Stmt) : (s.mapNames f).slots = s.slots.map (·.mapNames f) := by
  cases s with
  | classDecl decl => exact decl.slots_mapNames f
  | functionDecl name namespaced params returnType body =>
    exact congrArg (Slot.declared name (f.declared namespaced) :: ·) (slots_type? f returnType)
  | method name params returnType body => exact slots_type? f returnType
  | interfaceDecl name namespaced parents body =>
    simp only [Stmt.mapNames, Stmt.slots, slots_classNames, List.map_append]
    rfl
  | constDecl items =>
    simp only [Stmt.mapNames, Stmt.slots, List.flatMap_map, List.map_flatMap]
    rfl
  | traitUse traits adaptations =>
    simp only [Stmt.mapNames, Stmt.slots, slots_classNames, List.flatMap_map, List.map_flatMap,
      List.map_append, Adaptation.slots_mapNames]
  | _ => rfl

theorem Expr.slots_mapNames (e : Expr) : (e.mapNames f).slots = e.slots.map (·.mapNames f) := by
  cases e with
  | call callee args => cases callee <;> rfl
  | staticCall cls name args => exact cls.slots_mapNames f
  | staticPropertyFetch cls name => exact cls.slots_mapNames f
  | classConstFetch cls name => exact cls.slots_mapNames f
  | new cls args => exact cls.slots_mapNames f
  | instanceOf subject cls => exact cls.slots_mapNames f
  | closure params uses returnType body isStatic => exact slots_type? f returnType
  | arrowFunction params returnType body isStatic => exact slots_type? f returnType
  | _ => rfl

theorem Node.slots_mapNames (k : NodeKind) (n : Node k) :
    AnyNode.slots ⟨k, Node.mapNames f k n⟩ = (AnyNode.slots ⟨k, n⟩).map (·.mapNames f) := by
  cases k with
  | stmt => exact Stmt.slots_mapNames f n
  | expr => exact Expr.slots_mapNames f n
  | catchClause => exact slots_classNames f n.types
  | param => exact slots_type? f n.type
  | anonymousClass => exact ClassDecl.slots_mapNames f n

/-- Leaves what stands for the content of a slot in a frame. -/
structure NameMap.Neutral : Prop where
  name : f.name (Name.ofParts []) = Name.ofParts []
  declared : f.declared none = none

section

variable {f} (hf : f.Neutral)

include hf

theorem bare_classNames (names : List Name) :
    visitList SlotAction.bare.className (names.map f.name) =
      (visitList SlotAction.bare.className names).map f.name := by
  rw [visitList_id, visitList_id, List.map_map, List.map_map]
  exact List.map_congr_left fun _ _ => hf.name.symm

theorem bare_className? (name : Option Name) :
    visitOption SlotAction.bare.className (name.map f.name) =
      (visitOption SlotAction.bare.className name).map f.name := by
  cases name with
  | none => rfl
  | some n => exact congrArg some hf.name.symm

theorem TypeHint.bare_mapNames (t : TypeHint) :
    (t.mapNames f).visitSlots SlotAction.bare = (t.visitSlots SlotAction.bare).mapNames f := by
  induction t with
  | name n => exact congrArg TypeHint.name hf.name.symm
  | builtin n => rfl
  | nullable inner ih => exact congrArg TypeHint.nullable ih

theorem bare_type? (t : Option TypeHint) :
    visitOption (TypeHint.visitSlots SlotAction.bare) (t.map (·.mapNames f)) =
      (visitOption (TypeHint.visitSlots SlotAction.bare) t).map (·.mapNames f) := by
  cases t with
  | none => rfl
  | some t => exact congrArg some (t.bare_mapNames hf)

theorem ClassRef.bare_mapNames (c : ClassRef) :
    (c.mapNames f).visitSlots SlotAction.bare = (c.visitSlots SlotAction.bare).mapNames f := by
  cases c with
  | name n => exact congrArg ClassRef.name hf.name.symm
  | computed e => rfl
  | anonymous decl => rfl

theorem ClassDecl.bare_mapNames (c : ClassDecl) :
    (c.mapNames f).visitSlots SlotAction.bare = (c.visitSlots SlotAction.bare).mapNames f := by
  obtain ⟨name, namespaced, parent, interfaces, body⟩ := c
  have hparent := bare_className? hf parent
  have hinterfaces := bare_classNames hf interfaces
  cases name with
  | some short =>
    exact (ClassDecl.mk.injEq ..).mpr ⟨rfl, hf.declared.symm, hparent, hinterfaces, rfl⟩
  | none => exact (ClassDecl.mk.injEq ..).mpr ⟨rfl, rfl, hparent, hinterfaces, rfl⟩

theorem ConstItem.bare_mapNames (items : List ConstItem) :
    visitList (ConstItem.visitSlots SlotAction.bare) (items.map (·.mapNames f)) =
      (visitList (ConstItem.visitSlots SlotAction.bare) items).map (·.mapNames f) := by
  rw [visitList_id, visitList_id, List.map_map, List.map_map]
  exact List.map_congr_left fun i _ => congrArg (ConstItem.mk i.name · i.value) hf.declared.symm

theorem Adaptation.bare_mapNames (a : Adaptation) :
    (a.mapNames f).visitSlots SlotAction.bare = (a.visitSlots SlotAction.bare).mapNames f := by
  cases a with
  | rename traitName method newModifier newName =>
    exact congrArg (Adaptation.rename · method newModifier newName) (bare_className? hf traitName)
  | precedence traitName method insteadof =>
    exact congrArg₂ (Adaptation.precedence · method ·) hf.name.symm (bare_classNames hf insteadof)

theorem Adaptation.bare_map_mapNames (as : List Adaptation) :
    visitList (Adaptation.visitSlots SlotAction.bare) (as.map (·.mapNames f)) =
      (visitList (Adaptation.visitSlots SlotAction.bare) as).map (·.mapNames f) := by
  rw [visitList_id, visitList_id, List.map_map, List.map_map]
  exact List.map_congr_left fun a _ => a.bare_mapNames hf

theorem Stmt.bare_mapNames (s : Stmt) :
    (s.mapNames f).visitSlots SlotAction.bare = (s.visitSlots SlotAction.bare).mapNames f := by
  cases s with
  | classDecl decl => exact congrArg Stmt.classDecl (decl.bare_mapNames hf)
  | interfaceDecl name namespaced parents body =>
    exact congrArg₂ (Stmt.interfaceDecl name · · body) hf.declared.symm
      (bare_classNames hf parents)
  | traitDecl name namespaced body =>
    exact congrArg (Stmt.traitDecl name · body) hf.declared.symm
  | functionDecl name namespaced params returnType body =>
    exact congrArg₂ (Stmt.functionDecl name · params · body) hf.declared.symm
      (bare_type? hf returnType)
  | method name params returnType body =>
    exact congrArg (Stmt.method name params · body) (bare_type? hf returnType)
  | constDecl items => exact congrArg Stmt.constDecl (ConstItem.bare_mapNames hf items)
  | traitUse traits adaptations =>
    exact congrArg₂ Stmt.traitUse (bare_classNames hf traits)
      (Adaptation.bare_map_mapNames hf adaptations)
  | _ => rfl

theorem Expr.bare_mapNames (e : Expr) :
    (e.mapNames f).visitSlots SlotAction.bare = (e.visitSlots SlotAction.bare).mapNames f := by
  cases e with
  | call callee args =>
    cases callee with
    | name n => exact congrArg (fun n => Expr.call (.name n) args) hf.name.symm
    | computed e => rfl
  | staticCall cls name args =>
    exact congrArg (Expr.staticCall · name args) (cls.bare_mapNames hf)
  | staticPropertyFetch cls name =>
    exact congrArg (Expr.staticPropertyFetch · name) (cls.bare_mapNames hf)
  | classConstFetch cls name =>
    exact congrArg (Expr.classConstFetch · name) (cls.bare_mapNames hf)
  | constFetch n => exact congrArg Expr.constFetch hf.name.symm
  | new cls args => exact congrArg (Expr.new · args) (cls.bare_mapNames hf)
  | instanceOf subject cls => exact congrArg (Expr.instanceOf subject) (cls.bare_mapNames hf)
  | closure params uses returnType body isStatic =>
    exact congrArg (Expr.closure params uses · body isStatic) (bare_type? hf returnType)
  | arrowFunction params returnType body isStatic =>
    exact congrArg (Expr.arrowFunction params · body isStatic) (bare_type? hf returnType)
  | _ => rfl

theorem Node.bare_mapNames (k : NodeKind) (n : Node k) :
    Node.visitSlots SlotAction.bare k (Node.mapNames f k n) =
      Node.mapNames f k (Node.visitSlots SlotAction.bare k n) := by
  cases k with
  | stmt => exact Stmt.bare_mapNames hf n
  | expr => exact Expr.bare_mapNames hf n
  | catchClause => exact congrArg (Catch.mk · n.var n.body) (bare_classNames hf n.types)
  | param =>
    exact congrArg (Param.mk n.name · n.default n.byRef n.variadic) (bare_type? hf n.type)
  | anonymousClass => exact ClassDecl.bare_mapNames hf n

end

theorem ConstItem.own_mapNames (items : List ConstItem) :
    visitList (ConstItem.descend bare) (items.map (·.mapNames f)) =
      (visitList (ConstItem.descend bare) items).map (·.mapNames f) := by
  rw [visitList_id, visitList_id, List.map_map, List.map_map]
  rfl

theorem Node.own_mapNames (k : NodeKind) (n : Node k) :
    Node.own k (Node.mapNames f k n) = Node.mapNames f k (Node.own k n) := by
  cases k with
  | stmt =>
    cases n with
    | classConst items => exact congrArg Stmt.classConst (ConstItem.own_mapNames f items)
    | constDecl items => exact congrArg Stmt.constDecl (ConstItem.own_mapNames f items)
    | _ => rfl
  | expr =>
    cases n with
    | call callee args => cases callee <;> rfl
    | staticCall cls name args => cases cls <;> rfl
    | staticPropertyFetch cls name => cases cls <;> rfl
    | classConstFetch cls name => cases cls <;> rfl
    | new cls args => cases cls <;> rfl
    | instanceOf subject cls => cases cls <;> rfl
    | _ => rfl
  | _ => rfl

theorem AnyNode.frame_mapNames {f : NameMap} (hf : f.Neutral) (n : AnyNode) :
    (n.mapNames f).frame = n.frame.mapNames f := by
  refine congrArg (AnyNode.mk n.kind) ?_
  exact (congrArg (Node.own n.kind) (Node.bare_mapNames hf n.kind n.node)).trans
    (Node.own_mapNames f n.kind _)

end SymbolUsage
