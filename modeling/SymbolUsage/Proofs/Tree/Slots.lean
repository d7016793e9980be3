import SymbolUsage.Proofs.Tree.Children
import SymbolUsage.Resolve

/-! The places in a node where resolution writes: names in use and the full names of declarations.
A node is determined by what is in them together with its frame, the rest of it. -/
namespace SymbolUsage

/-- A place that resolution writes to, with what is in it. -/
inductive Slot where
  | className (name : Name)
  | functionName (name : Name)
  | constantName (name : Name)
  /-- The full name of what is declared under a short one. -/
  | declared (short : String) (full : Option Name)

/-- What is done to the slots of each sort. -/
structure SlotAction (m : Type → Type) where
  className : Name → m Name
  functionName : Name → m Name
  constantName : Name → m Name
  declared : String → Option Name → m (Option Name)

variable {P : Type}

namespace SlotAction

def each (f : SlotAction (StateM P)) : Slot → StateM P Slot
  | .className n => do return .className (← f.className n)
  | .functionName n => do return .functionName (← f.functionName n)
  | .constantName n => do return .constantName (← f.constantName n)
  | .declared short full => do return .declared short (← f.declared short full)

def bare : SlotAction Id where
  className _ := Name.ofParts []
  functionName _ := Name.ofParts []
  constantName _ := Name.ofParts []
  declared _ _ := none

def refill : SlotAction (StateM (List Slot)) where
  className
    | _, .className n :: rest => (n, rest)
    | n, rest => (n, rest)
  functionName
    | _, .functionName n :: rest => (n, rest)
    | n, rest => (n, rest)
  constantName
    | _, .constantName n :: rest => (n, rest)
    | n, rest => (n, rest)
  declared
    | _, _, .declared _ full :: rest => (full, rest)
    | _, full, rest => (full, rest)

end SlotAction

abbrev slotPlaces : Places Slot where
  Act := SlotAction
  each := SlotAction.each
  bare := SlotAction.bare
  refill := SlotAction.refill

section

variable {m : Type → Type} [Monad m] (f : SlotAction m)

def TypeHint.slots : TypeHint → List Slot
  | .name n => [.className n]
  | .builtin _ => []
  | .nullable inner => inner.slots

def TypeHint.visitSlots : TypeHint → m TypeHint
  | .name n => do return .name (← f.className n)
  | .builtin n => return .builtin n
  | .nullable inner => do return .nullable (← inner.visitSlots)

def ClassRef.slots : ClassRef → List Slot
  | .name n => [.className n]
  | .computed _ => []
  | .anonymous _ => []

def ClassRef.visitSlots : ClassRef → m ClassRef
  | .name n => do return .name (← f.className n)
  | cls => return cls

def ClassDecl.slots (c : ClassDecl) : List Slot :=
  c.parent.toList.map .className ++ c.interfaces.map .className
    ++ c.name.toList.map (.declared · c.namespaced)

def ClassDecl.visitSlots (c : ClassDecl) : m ClassDecl := do
  let parent ← visitOption f.className c.parent
  let interfaces ← visitList f.className c.interfaces
  let namespaced ←
    match c.name with
    | some short => f.declared short c.namespaced
    | none => pure c.namespaced
  return { c with parent, interfaces, namespaced }

def Adaptation.slots : Adaptation → List Slot
  | .rename traitName _ _ _ => traitName.toList.map .className
  | .precedence traitName _ insteadof => .className traitName :: insteadof.map .className

def Adaptation.visitSlots : Adaptation → m Adaptation
  | .rename traitName method newModifier newName => do
    return .rename (← visitOption f.className traitName) method newModifier newName
  | .precedence traitName method insteadof => do
    return .precedence (← f.className traitName) method (← visitList f.className insteadof)

def ConstItem.slots (i : ConstItem) : List Slot := [.declared i.name i.namespaced]

def ConstItem.visitSlots (i : ConstItem) : m ConstItem := do
  return { i with namespaced := ← f.declared i.name i.namespaced }

def Stmt.slots : Stmt → List Slot
  | .classDecl decl => decl.slots
  | .interfaceDecl name namespaced parents _ =>
    parents.map .className ++ [.declared name namespaced]
  | .traitDecl name namespaced _ => [.declared name namespaced]
  | .functionDecl name namespaced _ returnType _ =>
    .declared name namespaced :: returnType.toList.flatMap TypeHint.slots
  | .method _ _ returnType _ => returnType.toList.flatMap TypeHint.slots
  | .constDecl items => items.flatMap ConstItem.slots
  | .traitUse traits adaptations =>
    traits.map .className ++ adaptations.flatMap Adaptation.slots
  | _ => []

def Stmt.visitSlots : Stmt → m Stmt
  | .classDecl decl => do return .classDecl (← decl.visitSlots f)
  | .interfaceDecl name namespaced parents body => do
    let parents ← visitList f.className parents
    return .interfaceDecl name (← f.declared name namespaced) parents body
  | .traitDecl name namespaced body => do
    return .traitDecl name (← f.declared name namespaced) body
  | .functionDecl name namespaced params returnType body => do
    return .functionDecl name (← f.declared name namespaced) params
      (← visitOption (TypeHint.visitSlots f) returnType) body
  | .method name params returnType body => do
    return .method name params (← visitOption (TypeHint.visitSlots f) returnType) body
  | .constDecl items => do return .constDecl (← visitList (ConstItem.visitSlots f) items)
  | .traitUse traits adaptations => do
    return .traitUse (← visitList f.className traits)
      (← visitList (Adaptation.visitSlots f) adaptations)
  | other => return other

def Expr.slots : Expr → List Slot
  | .staticCall cls _ _ => cls.slots
  | .staticPropertyFetch cls _ => cls.slots
  | .classConstFetch cls _ => cls.slots
  | .new cls _ => cls.slots
  | .instanceOf _ cls => cls.slots
  | .call (.name n) _ => [.functionName n]
  | .constFetch n => [.constantName n]
  | .closure _ _ returnType _ _ => returnType.toList.flatMap TypeHint.slots
  | .arrowFunction _ returnType _ _ => returnType.toList.flatMap TypeHint.slots
  | _ => []

def Expr.visitSlots : Expr → m Expr
  | .staticCall cls name args => do return .staticCall (← cls.visitSlots f) name args
  | .staticPropertyFetch cls name => do return .staticPropertyFetch (← cls.visitSlots f) name
  | .classConstFetch cls name => do return .classConstFetch (← cls.visitSlots f) name
  | .new cls args => do return .new (← cls.visitSlots f) args
  | .instanceOf subject cls => do return .instanceOf subject (← cls.visitSlots f)
  | .call (.name n) args => do return .call (.name (← f.functionName n)) args
  | .constFetch n => do return .constFetch (← f.constantName n)
  | .closure params uses returnType body isStatic => do
    return .closure params uses (← visitOption (TypeHint.visitSlots f) returnType) body isStatic
  | .arrowFunction params returnType body isStatic => do
    return .arrowFunction params (← visitOption (TypeHint.visitSlots f) returnType) body isStatic
  | other => return other

def AnyNode.slots : AnyNode → List Slot
  | ⟨.stmt, s⟩ => Stmt.slots s
  | ⟨.expr, e⟩ => Expr.slots e
  | ⟨.catchClause, c⟩ => c.types.map .className
  | ⟨.param, p⟩ => p.type.toList.flatMap TypeHint.slots
  | ⟨.anonymousClass, c⟩ => ClassDecl.slots c

def Node.visitSlots : (k : NodeKind) → Node k → m (Node k)
  | .stmt, s => Stmt.visitSlots f s
  | .expr, e => Expr.visitSlots f e
  | .catchClause, c => do return { c with types := ← visitList f.className c.types }
  | .param, p => do return { p with type := ← visitOption (TypeHint.visitSlots f) p.type }
  | .anonymousClass, c => ClassDecl.visitSlots f c

end

theorem descends_className :
    Descends slotPlaces (fun n => [.className n]) (fun _ _ f => f.className) :=
  fun _ => ⟨fun _ _ => rfl, fun _ _ => rfl, fun _ => rfl⟩

theorem descends_functionName :
    Descends slotPlaces (fun n => [.functionName n]) (fun _ _ f => f.functionName) :=
  fun _ => ⟨fun _ _ => rfl, fun _ _ => rfl, fun _ => rfl⟩

theorem descends_constantName :
    Descends slotPlaces (fun n => [.constantName n]) (fun _ _ f => f.constantName) :=
  fun _ => ⟨fun _ _ => rfl, fun _ _ => rfl, fun _ => rfl⟩

theorem descends_declared (short : String) :
    Descends slotPlaces (fun full => [.declared short full]) (fun _ _ f => f.declared short) :=
  fun _ => ⟨fun _ _ => rfl, fun _ _ => rfl, fun _ => rfl⟩

theorem descends_classNames :
    Descends slotPlaces (List.map .className) (fun _ _ f => visitList f.className) :=
  descends_className.list.congr fun _ => List.map_eq_flatMap

theorem descends_className? :
    Descends slotPlaces (fun n => n.toList.map .className)
      (fun _ _ f => visitOption f.className) :=
  descends_className.option.congr fun _ => List.map_eq_flatMap

theorem TypeHint.visitsSlots : Descends slotPlaces TypeHint.slots @TypeHint.visitSlots := by
  intro t
  induction t with
  | name n => exact descends_className.through TypeHint.name n rfl
  | builtin _ => exact .leaf _ rfl
  | nullable inner ih => exact ih.through TypeHint.nullable rfl

theorem visitsSlots_type? :
    Descends slotPlaces (fun t => t.toList.flatMap TypeHint.slots)
      (fun _ _ f => visitOption (TypeHint.visitSlots f)) :=
  TypeHint.visitsSlots.option

theorem ClassRef.visitsSlots : Descends slotPlaces ClassRef.slots @ClassRef.visitSlots := by
  intro c
  cases c with
  | name n => exact descends_className.through ClassRef.name n rfl
  | computed _ => exact .leaf _ rfl
  | anonymous _ => exact .leaf _ rfl

theorem ClassDecl.visitsSlots : Descends slotPlaces ClassDecl.slots @ClassDecl.visitSlots := by
  rintro ⟨name, namespaced, parent, interfaces, body⟩
  cases name with
  | some short =>
    exact ((descends_className?.prod descends_classNames).prod (descends_declared short)).through
      (fun x => ClassDecl.mk (some short) x.2 x.1.1 x.1.2 body)
      ((parent, interfaces), namespaced) rfl
  | none =>
    have h := (descends_className?.prod descends_classNames).congr fun _ => List.append_nil _
    exact h.through (fun x => ClassDecl.mk none namespaced x.1 x.2 body) (parent, interfaces) rfl

theorem Adaptation.visitsSlots : Descends slotPlaces Adaptation.slots @Adaptation.visitSlots := by
  intro a
  cases a with
  | rename traitName method newModifier newName =>
    exact descends_className?.through (Adaptation.rename · method newModifier newName) traitName rfl
  | precedence traitName method insteadof =>
    exact (descends_className.prod descends_classNames).through
      (fun x => Adaptation.precedence x.1 method x.2) (traitName, insteadof) rfl

theorem ConstItem.visitsSlots : Descends slotPlaces ConstItem.slots @ConstItem.visitSlots := by
  rintro ⟨name, namespaced, value⟩
  exact (descends_declared name).through (ConstItem.mk name · value) namespaced rfl

theorem Stmt.visitsSlots (s : Stmt) : DescendsAt slotPlaces Stmt.slots @Stmt.visitSlots s := by
  cases s with
  | classDecl decl => exact ClassDecl.visitsSlots.through Stmt.classDecl decl rfl
  | interfaceDecl name namespaced parents body =>
    exact (descends_classNames.prod (descends_declared name)).through
      (fun x => Stmt.interfaceDecl name x.2 x.1 body) (parents, namespaced) rfl
  | traitDecl name namespaced body =>
    exact (descends_declared name).through (Stmt.traitDecl name · body) namespaced rfl
  | functionDecl name namespaced params returnType body =>
    exact ((descends_declared name).prod visitsSlots_type?).through
      (fun x => Stmt.functionDecl name x.1 params x.2 body) (namespaced, returnType) rfl
  | method name params returnType body =>
    exact visitsSlots_type?.through (Stmt.method name params · body) returnType rfl
  | constDecl items => exact ConstItem.visitsSlots.list.through Stmt.constDecl items rfl
  | traitUse traits adaptations =>
    exact (descends_classNames.prod Adaptation.visitsSlots.list).through
      (fun x => Stmt.traitUse x.1 x.2) (traits, adaptations) rfl
  | _ => exact .leaf _ rfl

theorem Expr.visitsSlots (e : Expr) : DescendsAt slotPlaces Expr.slots @Expr.visitSlots e := by
  cases e with
  | staticCall cls name args =>
    exact ClassRef.visitsSlots.through (Expr.staticCall · name args) cls rfl
  | staticPropertyFetch cls name =>
    exact ClassRef.visitsSlots.through (Expr.staticPropertyFetch · name) cls rfl
  | classConstFetch cls name =>
    exact ClassRef.visitsSlots.through (Expr.classConstFetch · name) cls rfl
  | new cls args => exact ClassRef.visitsSlots.through (Expr.new · args) cls rfl
  | instanceOf subject cls => exact ClassRef.visitsSlots.through (Expr.instanceOf subject ·) cls rfl
  | call callee args =>
    cases callee with
    | name n => exact descends_functionName.through (fun n => Expr.call (.name n) args) n rfl
    | computed e => exact .leaf _ rfl
  | constFetch n => exact descends_constantName.through Expr.constFetch n rfl
  | closure params uses returnType body isStatic =>
    exact visitsSlots_type?.through (Expr.closure params uses · body isStatic) returnType rfl
  | arrowFunction params returnType body isStatic =>
    exact visitsSlots_type?.through (Expr.arrowFunction params · body isStatic) returnType rfl
  | _ => exact .leaf _ rfl

theorem Node.visitsSlots (k : NodeKind) :
    Descends slotPlaces (fun n : Node k => AnyNode.slots ⟨k, n⟩)
      (fun _ _ f => Node.visitSlots f k) := by
  intro n
  cases k with
  | stmt => exact Stmt.visitsSlots n
  | expr => exact Expr.visitsSlots n
  | catchClause =>
    obtain ⟨types, var, body⟩ := n
    exact descends_classNames.through (Catch.mk · var body) types rfl
  | param =>
    obtain ⟨name, type, default, byRef, variadic⟩ := n
    exact visitsSlots_type?.through (Param.mk name · default byRef variadic) type rfl
  | anonymousClass => exact ClassDecl.visitsSlots n

theorem ClassDecl.body_visitSlots (f : SlotAction (StateM P)) (c : ClassDecl) (p : P) :
    (c.visitSlots f p).1.body = c.body := by
  obtain ⟨name, namespaced, parent, interfaces, body⟩ := c
  cases name <;> rfl

theorem ClassDecl.descend_visitSlots_bare (c : ClassDecl) :
    (c.visitSlots SlotAction.bare).descend bare = (c.descend bare).visitSlots SlotAction.bare := by
  obtain ⟨name, namespaced, parent, interfaces, body⟩ := c
  cases name <;> rfl

namespace Node

variable {k : NodeKind}

/-- The slots and the children of a node are apart: writing to one leaves the other. -/
structure Apart (n : Node k) : Prop where
  children : ∀ {P : Type} (f : SlotAction (StateM P)) (p : P),
    AnyNode.children ⟨k, (Node.visitSlots f k n p).1⟩ = AnyNode.children ⟨k, n⟩
  slots : AnyNode.slots ⟨k, own k n⟩ = AnyNode.slots ⟨k, n⟩
  bare : own k (Node.visitSlots SlotAction.bare k n) =
    Node.visitSlots SlotAction.bare k (own k n)

theorem apart_constDecl (items : List ConstItem) : Apart (k := .stmt) (Stmt.constDecl items) := by
  refine ⟨fun f p => flatMap_visitList (fun _ _ => rfl) items p, ?_, ?_⟩
  · change (visitList (ConstItem.descend bare) items).flatMap ConstItem.slots = _
    rw [visitList_id, List.flatMap_map]
    rfl
  · change Stmt.constDecl (visitList (ConstItem.descend bare)
      (visitList (ConstItem.visitSlots SlotAction.bare) items)) = Stmt.constDecl (visitList
      (ConstItem.visitSlots SlotAction.bare) (visitList (ConstItem.descend bare) items))
    simp only [visitList_id, List.map_map]
    rfl

theorem apart (n : Node k) : Apart n := by
  cases k with
  | stmt =>
    cases n with
    | classDecl decl =>
      exact ⟨fun f p => congrArg (List.map AnyNode.stmt) (decl.body_visitSlots f p), rfl,
        congrArg Stmt.classDecl decl.descend_visitSlots_bare⟩
    | constDecl items => exact apart_constDecl items
    | _ => exact ⟨fun _ _ => rfl, rfl, rfl⟩
  | expr =>
    cases n with
    | staticCall cls name args => cases cls <;> exact ⟨fun _ _ => rfl, rfl, rfl⟩
    | staticPropertyFetch cls name => cases cls <;> exact ⟨fun _ _ => rfl, rfl, rfl⟩
    | classConstFetch cls name => cases cls <;> exact ⟨fun _ _ => rfl, rfl, rfl⟩
    | new cls args => cases cls <;> exact ⟨fun _ _ => rfl, rfl, rfl⟩
    | instanceOf subject cls => cases cls <;> exact ⟨fun _ _ => rfl, rfl, rfl⟩
    | call callee args => cases callee <;> exact ⟨fun _ _ => rfl, rfl, rfl⟩
    | _ => exact ⟨fun _ _ => rfl, rfl, rfl⟩
  | anonymousClass =>
    exact ⟨fun f p => congrArg (List.map AnyNode.stmt) (ClassDecl.body_visitSlots f n p), rfl,
      ClassDecl.descend_visitSlots_bare n⟩
  | _ => exact ⟨fun _ _ => rfl, rfl, rfl⟩

theorem slots_descend (f : Action (StateM P)) (n : Node k) (p : P) :
    AnyNode.slots ⟨k, (Node.descend f k n p).1⟩ = AnyNode.slots ⟨k, n⟩ := by
  rw [← (apart (Node.descend f k n p).1).slots, own_descend, (apart n).slots]

/-- What there is in a node beside its children and its slots. -/
def frame (k : NodeKind) (n : Node k) : Node k := own k (Node.visitSlots SlotAction.bare k n)

theorem frame_visitSlots (f : SlotAction (StateM P)) (n : Node k) (p : P) :
    frame k (Node.visitSlots f k n p).1 = frame k n :=
  congrArg (own k) ((Node.visitsSlots k n).own f p)

theorem frame_descend (f : Action (StateM P)) (n : Node k) (p : P) :
    frame k (Node.descend f k n p).1 = frame k n := by
  rw [frame, (apart _).bare, own_descend, ← (apart n).bare, frame]

/-- A frame tells where the slots end in a list. -/
theorem own_eq_of_frame_of_append {n n' : Node k} (hf : frame k n = frame k n')
    {rest rest' : List Slot}
    (hs : AnyNode.slots ⟨k, n⟩ ++ rest = AnyNode.slots ⟨k, n'⟩ ++ rest') :
    own k n = own k n' ∧ rest = rest' := by
  have h := (Node.visitsSlots k (own k n)).refill rest
  have h' := (Node.visitsSlots k (own k n')).refill rest'
  rw [(apart n).slots, ← (apart n).bare] at h
  rw [(apart n').slots, ← (apart n').bare] at h'
  rw [frame, frame] at hf
  rw [hf, hs, h'] at h
  exact Prod.mk.inj h.symm

end Node

def AnyNode.frame (n : AnyNode) : AnyNode := ⟨n.kind, Node.frame n.kind n.node⟩

end SymbolUsage
