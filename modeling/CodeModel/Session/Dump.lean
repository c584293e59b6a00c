import CodeModel.Session.State

/-! The object graph below the registers, numbered by first visit: one number is one object. -/

namespace CodeModel

abbrev DumpedItems := Option (Nat × List Nat)

structure DumpedList where
  items : DumpedItems
  sealed : Bool
  length : Nat
  noIdentity : Bool
  canonical : Option Bool

structure DumpedRegion where
  file : Option Nat
  start : Location
  stop : Location

inductive DumpedLiteral where
  | string (text : Nat)
  | plain (l : Literal)

inductive TypeShape where
  | unknown
  | null
  | dynamic
  | named (ns name : Nat) (args : DumpedList)
  | array (element : Nat) (rank : UInt32)
  | byRef (element : Nat)

inductive DumpedFields where
  | typeRef (isUnknown : Bool) (ns name : String) (argCount : Nat) (shape : TypeShape)
  | constant (type : Nat) (literal : DumpedLiteral)
  | attr (type : Nat) (positional : DumpedItems) (named : List (Nat × Nat)) (region : DumpedRegion)
  | parameter (name type : Nat) (attributes : DumpedItems) (default : Option Nat) (isOptional : Bool)
      (region : DumpedRegion) (flags : ParameterFlags)
  | method (name returns : Nat) (parameters : DumpedList) (attributes : DumpedItems)
      (typeParameters : List Nat) (accessibility : Accessibility) (modifiers : MethodModifiers)
      (region : DumpedRegion)
  | definition (ns name : Nat) (fullName : String) (kind : TypeKind) (accessibility : Accessibility)
      (bases methods attributes : DumpedItems) (region : DumpedRegion)
  | probe (hash : UInt64) (tag : Int) (child : Option Nat)

structure DumpedEntity where
  kind : String
  frozen : Bool
  canonical : Option Bool
  fields : DumpedFields

inductive DumpedItem where
  | nothing
  | text (n : Nat)
  | entity (n : Nat)
  | list (l : DumpedList)

structure Dump where
  registers : List (String × DumpedItem)
  entities : List DumpedEntity
  texts : List String

structure Numbering where
  labels : List Nat
  texts : List Text
  storages : List Nat
  done : List (Nat × DumpedEntity)

abbrev Dumping := StateM Numbering

structure DumpSetting where
  hasher : Hasher
  frozen : Frozen
  provider : Option Provider

variable (s : DumpSetting)

def dumpText (t : Text) : Dumping Nat := modifyGet fun st =>
  match st.texts.findIdx? (·.id == t.id) with
  | some n => (n, st)
  | none => (st.texts.length, { st with texts := st.texts ++ [t] })

def dumpStorage (storage : Nat) : Dumping Nat := modifyGet fun st =>
  match st.storages.findIdx? (· == storage) with
  | some n => (n, st)
  | none => (st.storages.length, { st with storages := st.storages ++ [storage] })

def dumpObject (id : Nat) (kind : String) (canonical : Option Bool) (fields : Dumping DumpedFields) :
    Dumping Nat := do
  let st ← get
  match st.labels.findIdx? (· == id) with
  | some n => return n
  | none =>
    let n := st.labels.length
    set { st with labels := st.labels ++ [id] }
    let e : DumpedEntity := ⟨kind, s.frozen.contains id, canonical, ← fields⟩
    modify fun st => { st with done := (n, e) :: st.done }
    return n

def dumpEntity (k : Kind) (x : Handle k.Carrier) (fields : Dumping DumpedFields) : Dumping Nat :=
  dumpObject s x.id k.name (s.provider.map fun p => p.isCanonical s.hasher Held.nothing k x) fields

def dumpItems {α : Type} (l : EntityList α) (elements : Dumping (List Nat)) : Dumping DumpedItems := do
  if l.items.isEmpty then return none
  else
    let storage ← dumpStorage l.storage
    return some (storage, ← elements)

def dumpList (k : Kind) (l : EntityList k.Carrier) (elements : Dumping (List Nat)) :
    Dumping DumpedList := do
  return ⟨← dumpItems l elements, l.sealed, l.length, l.identity.isNone,
    s.provider.map fun p => p.isCanonicalList s.hasher k l⟩

def dumpRegion (r : Region) : Dumping DumpedRegion := do
  return ⟨← r.file.mapM dumpText, r.start, r.stop⟩

namespace TypeRef

mutual

def dumpFields : TypeRef → Dumping DumpedFields
  | unknown => return .typeRef true "" "" 0 .unknown
  | null => return .typeRef false "" "" 0 .null
  | dynamic => return .typeRef false "" "" 0 .dynamic
  | named ns name args => do
    let n ← dumpText ns
    let m ← dumpText name
    let l ← dumpList s .typeRef args (dumpAll args.items)
    return .typeRef false ns.val name.val args.length (.named n m l)
  | array e rank => do
    let n ← dumpEntity s .typeRef e e.val.dumpFields
    return .typeRef false "" "" 0 (.array n rank)
  | byRef e => do
    let n ← dumpEntity s .typeRef e e.val.dumpFields
    return .typeRef false "" "" 0 (.byRef n)

def dumpAll : List (Handle TypeRef) → Dumping (List Nat)
  | [] => return []
  | x :: xs => do
    let n ← dumpEntity s .typeRef x x.val.dumpFields
    let ns ← dumpAll xs
    return n :: ns

end

def dump (x : Handle TypeRef) : Dumping Nat := dumpEntity s .typeRef x (x.val.dumpFields s)

end TypeRef

def Literal.dump : Literal → Dumping DumpedLiteral
  | .string t => return .string (← dumpText t)
  | l => return .plain l

def Constant.dump (x : Handle Constant) : Dumping Nat := dumpEntity s .constant x do
  let type ← TypeRef.dump s x.val.type
  return .constant type (← x.val.literal.dump)

def NamedArgument.dump (n : NamedArgument) : Dumping (Nat × Nat) := do
  let name ← dumpText n.name
  return (name, ← Constant.dump s n.value)

def Attribute.dump (x : Handle Attribute) : Dumping Nat := dumpEntity s .attr x do
  let type ← TypeRef.dump s x.val.type
  let positional ← dumpItems x.val.positional (x.val.positional.items.mapM (Constant.dump s))
  let named ← x.val.named.mapM (NamedArgument.dump s)
  return .attr type positional named (← dumpRegion x.val.region)

def dumpAttributes (l : EntityList Attribute) : Dumping DumpedItems :=
  dumpItems l (l.items.mapM (Attribute.dump s))

def Parameter.dump (x : Handle Parameter) : Dumping Nat := dumpEntity s .parameter x do
  let name ← dumpText x.val.name
  let type ← TypeRef.dump s x.val.type
  let attributes ← dumpAttributes s x.val.attributes
  let default ← x.val.default.mapM (Constant.dump s)
  return .parameter name type attributes default x.val.isOptional (← dumpRegion x.val.region) x.val.flags

def Method.dump (x : Handle Method) : Dumping Nat := dumpEntity s .method x do
  let m := x.val
  let name ← dumpText m.name
  let returns ← TypeRef.dump s m.returns
  let parameters ← dumpList s .parameter m.parameters (m.parameters.items.mapM (Parameter.dump s))
  let attributes ← dumpAttributes s m.attributes
  let typeParameters ← m.typeParameters.mapM dumpText
  return .method name returns parameters attributes typeParameters m.accessibility m.modifiers
    (← dumpRegion m.region)

def Definition.dump (d : Handle Definition) : Dumping Nat :=
  dumpObject s d.id Definition.kindName none do
    let v := d.val
    let ns ← dumpText v.ns
    let name ← dumpText v.name
    let bases ← dumpItems v.bases (v.bases.items.mapM (TypeRef.dump s))
    let methods ← dumpItems v.methods (v.methods.items.mapM (Method.dump s))
    let attributes ← dumpAttributes s v.attributes
    return .definition ns name v.fullName v.kind v.accessibility bases methods attributes
      (← dumpRegion v.region)

namespace Probe

def dumpFields (series : ProbeSeries) : Probe → Dumping DumpedFields
  | mk hash tag none => return .probe hash tag none
  | mk hash tag (some x) => do
    let n ← dumpEntity s (.probe series) x (x.val.dumpFields series)
    return .probe hash tag (some n)

end Probe

namespace Kind

def dump : (k : Kind) → Handle k.Carrier → Dumping Nat
  | typeRef => TypeRef.dump s
  | constant => Constant.dump s
  | attr => Attribute.dump s
  | parameter => Parameter.dump s
  | method => Method.dump s
  | probe series => fun x => dumpEntity s (.probe series) x (x.val.dumpFields s series)

end Kind

def Item.dump : Item → Dumping DumpedItem
  | nothing => return .nothing
  | text t => return .text (← dumpText t)
  | entity k x => return .entity (← k.dump s x)
  | list k l => return .list (← dumpList s k l (l.items.mapM (k.dump s)))
  | definition d => return .entity (← Definition.dump s d)

def dumpRegister (r : String × Item) : Dumping (String × DumpedItem) := return (r.1, ← r.2.dump s)

def Session.dump (s : Session) (provider : String) : Dump :=
  let setting := ⟨s.hasher, s.frozen, s.providers.lookup provider⟩
  let registers := s.registers.mergeSort fun a b => a.1 ≤ b.1
  let (rs, st) := (registers.mapM (dumpRegister setting)).run ⟨[], [], [], []⟩
  ⟨rs, (List.range st.labels.length).filterMap fun n => st.done.lookup n, st.texts.map Handle.val⟩

end CodeModel
