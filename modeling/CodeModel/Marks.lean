import CodeModel.Entity.Kind

/-! Sets of labels. What an entity holds is marked before the entity, and a marked one is not entered again. -/

namespace CodeModel

abbrev Marks := List Nat

namespace Marks

def visit (id : Nat) (below : Marks → Marks) (m : Marks) : Marks :=
  if m.contains id then m else id :: below m

def visitAll {α : Type} (below : α → Marks → Marks) (xs : List (Handle α)) (m : Marks) : Marks :=
  xs.foldl (fun m x => visit x.id (below x.val) m) m

end Marks

def SharedType.marks : Marks := all.map (·.handle.id)

open Marks

namespace TypeRef

mutual

def markBelow : TypeRef → Marks → Marks
  | unknown, m | null, m | dynamic, m => m
  | named _ _ args, m => markAll args.items m
  | array e _, m => visit e.id (e.val.markBelow) m
  | byRef e, m => visit e.id (e.val.markBelow) m

def markAll : List (Handle TypeRef) → Marks → Marks
  | [], m => m
  | x :: xs, m => markAll xs (visit x.id (x.val.markBelow) m)

end

end TypeRef

def Constant.markBelow (c : Constant) : Marks → Marks := visit c.type.id c.type.val.markBelow

def markNamed (named : List NamedArgument) : Marks → Marks :=
  visitAll Constant.markBelow (named.map (·.value))

def Attribute.markBelow (a : Attribute) (m : Marks) : Marks :=
  let m := visit a.type.id a.type.val.markBelow m
  let m := visitAll Constant.markBelow a.positional.items m
  markNamed a.named m

def markDefault (default : Option (Handle Constant)) : Marks → Marks :=
  visitAll Constant.markBelow default.toList

def Parameter.markBelow (p : Parameter) (m : Marks) : Marks :=
  let m := visit p.type.id p.type.val.markBelow m
  let m := visitAll Attribute.markBelow p.attributes.items m
  markDefault p.default m

def Method.markBelow (v : Method) (m : Marks) : Marks :=
  let m := visit v.returns.id v.returns.val.markBelow m
  let m := visitAll Parameter.markBelow v.parameters.items m
  visitAll Attribute.markBelow v.attributes.items m

def Definition.markBelow (d : Definition) (m : Marks) : Marks :=
  let m := visitAll TypeRef.markBelow d.bases.items m
  let m := visitAll Method.markBelow d.methods.items m
  visitAll Attribute.markBelow d.attributes.items m

def Probe.markBelow : Probe → Marks → Marks
  | mk _ _ none, m => m
  | mk _ _ (some x), m => visit x.id x.val.markBelow m

def Kind.markBelow : (k : Kind) → k.Carrier → Marks → Marks
  | typeRef => TypeRef.markBelow
  | constant => Constant.markBelow
  | attr => Attribute.markBelow
  | parameter => Parameter.markBelow
  | method => Method.markBelow
  | probe _ => Probe.markBelow

def Kind.mark (k : Kind) (x : Handle k.Carrier) : Marks → Marks := visit x.id (k.markBelow x.val)

def markItems (k : Kind) (l : EntityList k.Carrier) : Marks → Marks := visitAll k.markBelow l.items

def Definition.mark (d : Handle Definition) : Marks → Marks := visit d.id d.val.markBelow

end CodeModel
