import CodeModel.Intern.Canonical

/-! Preparing entities. A slot of an entity that is prepared in place is held also by the slots beside it. -/

namespace CodeModel

open Interning

variable (s : Setting)

namespace TypeRef

mutual

def prepare (held : Held) : TypeRef → Interning TypeRef
  | named ns name args => do
    let ns ← poolText s ns
    let name ← poolText s name
    let args ← canonicalizeList s .typeRef args (internAll args.items)
    return named ns name args
  | array e rank => do
    let e ← canonicalize s .typeRef held e fun held => e.val.prepare held
    return array e rank
  | byRef e => do
    let e ← canonicalize s .typeRef held e fun held => e.val.prepare held
    return byRef e
  | t => return t

def internAll : List (Handle TypeRef) → Interning (List (Handle TypeRef))
  | [] => return []
  | x :: xs => do
    let y ← canonicalize s .typeRef .everything x fun held => x.val.prepare held
    let ys ← internAll xs
    return y :: ys

end

def intern (held : Held) (x : Handle TypeRef) : Interning (Handle TypeRef) :=
  canonicalize s .typeRef held x fun held => x.val.prepare s held

end TypeRef

namespace Constant

def prepare (held : Held) (c : Constant) : Interning Constant := do
  let type ← TypeRef.intern s held c.type
  match c.literal with
  | .string t =>
    let t ← poolText s t
    return ⟨type, .string t⟩
  | literal => return ⟨type, literal⟩

def intern (held : Held) (x : Handle Constant) : Interning (Handle Constant) :=
  canonicalize s .constant held x fun held => x.val.prepare s held

def internOptional (held : Held) : Option (Handle Constant) → Interning (Option (Handle Constant))
  | none => return none
  | some c => do
    let c ← intern s held c
    return some c

end Constant

namespace Attribute

/-- Each value is held by the arguments before it, which are done, and by those after it. -/
def internNamed (held : Held) : List NamedArgument → List NamedArgument → Interning (List NamedArgument)
  | done, [] => return done
  | done, n :: rest => do
    let name ← poolText s n.name
    let value ← Constant.intern s (held.and (markNamed (done ++ rest))) n.value
    internNamed held (done ++ [⟨name, value⟩]) rest

def prepare (held : Held) (a : Attribute) : Interning Attribute := do
  let type ← TypeRef.intern s
    (held.and (markNamed a.named ∘ markItems .constant a.positional)) a.type
  let positional ← canonicalizeList s .constant a.positional
    (a.positional.items.mapM (Constant.intern s .everything))
  let named ← internNamed s
    (held.and (markItems .constant positional ∘ Kind.mark .typeRef type)) [] a.named
  let region ← poolRegion s a.region
  return ⟨type, positional, named, region⟩

def intern (held : Held) (x : Handle Attribute) : Interning (Handle Attribute) :=
  canonicalize s .attr held x fun held => x.val.prepare s held

end Attribute

def internAttributes (l : EntityList Attribute) : Interning (EntityList Attribute) :=
  canonicalizeList s .attr l (l.items.mapM (Attribute.intern s .everything))

namespace Parameter

def prepare (held : Held) (p : Parameter) : Interning Parameter := do
  let name ← poolText s p.name
  let type ← TypeRef.intern s
    (held.and (markDefault p.default ∘ markItems .attr p.attributes)) p.type
  let attributes ← internAttributes s p.attributes
  let default ← Constant.internOptional s
    (held.and (markItems .attr attributes ∘ Kind.mark .typeRef type)) p.default
  let region ← poolRegion s p.region
  return ⟨name, type, attributes, default, region, p.flags⟩

def intern (held : Held) (x : Handle Parameter) : Interning (Handle Parameter) :=
  canonicalize s .parameter held x fun held => x.val.prepare s held

end Parameter

namespace Method

def prepare (held : Held) (m : Method) : Interning Method := do
  let name ← poolText s m.name
  let returns ← TypeRef.intern s
    (held.and (markItems .attr m.attributes ∘ markItems .parameter m.parameters)) m.returns
  let parameters ← canonicalizeList s .parameter m.parameters
    (m.parameters.items.mapM (Parameter.intern s .everything))
  let attributes ← internAttributes s m.attributes
  let typeParameters ← poolTexts s m.typeParameters
  let region ← poolRegion s m.region
  return ⟨name, returns, parameters, attributes, typeParameters, m.accessibility, m.modifiers, region⟩

end Method

namespace Probe

def prepare (series : ProbeSeries) (held : Held) : Probe → Interning Probe
  | mk hash tag none => return mk hash tag none
  | mk hash tag (some x) => do
    let x ← canonicalize s (.probe series) held x fun held => x.val.prepare series held
    return mk hash tag (some x)

end Probe

namespace Kind

def prepare : (k : Kind) → Held → k.Carrier → Interning k.Carrier
  | typeRef => TypeRef.prepare s
  | constant => Constant.prepare s
  | attr => Attribute.prepare s
  | parameter => Parameter.prepare s
  | method => Method.prepare s
  | probe series => Probe.prepare s series

def intern (k : Kind) (held : Held) (x : Handle k.Carrier) : Interning (Handle k.Carrier) :=
  canonicalize s k held x fun held => k.prepare s held x.val

def internList (k : Kind) (l : EntityList k.Carrier) : Interning (EntityList k.Carrier) :=
  canonicalizeList s k l (l.items.mapM (k.intern s .everything))

def prepareInPlace (k : Kind) (held : Held) (x : Handle k.Carrier) : Interning (Handle k.Carrier) :=
  ifPreparable s x.id k.name x do
    let v ← k.prepare s held x.val
    return ⟨x.id, v⟩

end Kind

/-- The entities of a definition stand in lists, which keep them until their replacements are complete. -/
def Definition.internMembers (d : Handle Definition) : Interning (Handle Definition) :=
  ifPreparable s d.id Definition.kindName d do
    let ns ← poolText s d.val.ns
    let name ← poolText s d.val.name
    let bases ← Kind.internList s .typeRef d.val.bases
    let methods ← Kind.internList s .method d.val.methods
    let attributes ← Kind.internList s .attr d.val.attributes
    let region ← poolRegion s d.val.region
    let v := { d.val with ns, name, bases, methods, attributes, region }
    unlessFailed ⟨d.id, v⟩ do
      emit (.interned (← get).provider.number v.fullName methods.length)
      return ⟨d.id, v⟩

end CodeModel
