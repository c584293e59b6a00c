import CodeModel.Session.Item

namespace CodeModel

inductive Segment where
  | element
  | arg (i : Nat)
  | args
  | ns
  | name
  | type
  | string
  | positional (i : Nat)
  | named (i : Nat)
  | default
  | attr (i : Nat)
  | returns
  | parameter (i : Nat)
  | parameters
  | typeParameter (i : Nat)
  | base (i : Nat)
  | method (i : Nat)

def nth? (k : Kind) (l : EntityList k.Carrier) (i : Nat) : Option Item := l.items[i]?.map (.entity k)

namespace TypeRef

def part? : TypeRef → Segment → Option Item
  | named ns _ _, .ns => some (.text ns)
  | named _ name _, .name => some (.text name)
  | named _ _ args, .args => some (.list .typeRef args)
  | named _ _ args, .arg i => nth? .typeRef args i
  | t, .element => t.element?.map (.entity .typeRef)
  | _, _ => none

end TypeRef

def Constant.part? (c : Constant) : Segment → Option Item
  | .type => some (.entity .typeRef c.type)
  | .string =>
    match c.literal with
    | .string t => some (.text t)
    | _ => none
  | _ => none

def Attribute.part? (a : Attribute) : Segment → Option Item
  | .type => some (.entity .typeRef a.type)
  | .positional i => nth? .constant a.positional i
  | .named i => a.named[i]?.map fun n => .entity .constant n.value
  | _ => none

def Parameter.part? (p : Parameter) : Segment → Option Item
  | .type => some (.entity .typeRef p.type)
  | .default => p.default.map (.entity .constant)
  | .attr i => nth? .attr p.attributes i
  | _ => none

def Method.part? (m : Method) : Segment → Option Item
  | .returns => some (.entity .typeRef m.returns)
  | .parameter i => nth? .parameter m.parameters i
  | .parameters => some (.list .parameter m.parameters)
  | .attr i => nth? .attr m.attributes i
  | .typeParameter i => m.typeParameters[i]?.map .text
  | _ => none

def Definition.part? (d : Definition) : Segment → Option Item
  | .base i => nth? .typeRef d.bases i
  | .method i => nth? .method d.methods i
  | .attr i => nth? .attr d.attributes i
  | _ => none

namespace Item

def part? : Item → Segment → Option Item
  | entity .typeRef x => x.val.part?
  | entity .constant x => x.val.part?
  | entity .attr x => x.val.part?
  | entity .parameter x => x.val.part?
  | entity .method x => x.val.part?
  | definition d => d.val.part?
  | _ => fun _ => none

def follow? (i : Item) (path : List Segment) : Option Item := path.foldlM part? i

end Item

end CodeModel
