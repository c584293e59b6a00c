import CodeModel.Session.Recipe
import CodeModel.Session.State

/-! Building fails where a register does not hold what the recipe expects of it. -/

namespace CodeModel

abbrev Builder := StateT Session Option

namespace Builder

def ofOption {α : Type} (a : Option α) : Builder α := a.elim failure pure

def objectLabels (count : Nat) : Builder Nat :=
  modifyGet fun s => (s.nextObject, { s with nextObject := s.nextObject + count })

def label : Builder Nat := objectLabels 1

def place {α : Type} (v : α) : Builder (Handle α) := return ⟨← label, v⟩

def textLabels (count : Nat) : Builder Nat :=
  modifyGet fun s => (s.nextText, { s with nextText := s.nextText + count })

def text (value : String) : Builder Text := return ⟨← textLabels 1, value⟩

def list {α : Type} (items : List (Handle α)) : Builder (EntityList α) :=
  return ⟨false, ← label, items⟩

def register (name : String) : Builder Item := do ofOption ((← get).register? name)

def entity (k : Kind) (name : String) : Builder (Handle k.Carrier) := do
  match ← register name with
  | .entity j x => if h : j = k then return h ▸ x else failure
  | _ => failure

end Builder

open Builder

def TextRecipe.build : TextRecipe → Builder Text
  | register name => do
    match ← Builder.register name with
    | .text t => return t
    | _ => failure
  | empty => return Text.empty
  | fresh s => text s

def buildNs (ns : String) : Builder Text := if ns.isEmpty then return Text.empty else text ns

def RegionRecipe.build (r : RegionRecipe) : Builder Region := do
  match r.file with
  | none => return ⟨none, r.start, r.stop⟩
  | some f =>
    let f ← f.build
    return ⟨some f, r.start, r.stop⟩

namespace TypeRecipe

mutual

def build : TypeRecipe → Builder (Handle TypeRef)
  | register name => Builder.entity .typeRef name
  | shared t => return t.handle
  | named ns name args => do
    let ns ← buildNs ns
    let name ← text name
    let args ← buildAll args
    place (.named ns name (← list args))
  | array element rank => do
    let e ← build element
    place (.ofElement e rank)
  | byRef element => do
    let e ← build element
    place (.byRef e)

def buildAll : List TypeRecipe → Builder (List (Handle TypeRef))
  | [] => return []
  | r :: rs => do
    let x ← build r
    let xs ← buildAll rs
    return x :: xs

end

end TypeRecipe

def LiteralRecipe.build : LiteralRecipe → Builder Literal
  | plain l _ => return l
  | string t => return .string (← t.build)

def ConstantRecipe.build : ConstantRecipe → Builder (Handle Constant)
  | register name => Builder.entity .constant name
  | null => place .null
  | make type literal => do
    let type ← type.build
    let literal ← literal.build
    place ⟨type, literal⟩

def buildNamed (n : String × ConstantRecipe) : Builder NamedArgument := do
  let name ← text n.1
  let value ← n.2.build
  return ⟨name, value⟩

def AttributeRecipe.build : AttributeRecipe → Builder (Handle Attribute)
  | register name => Builder.entity .attr name
  | make type positional named region => do
    let type ← type.build
    let positional ← list (← positional.mapM ConstantRecipe.build)
    let named ← named.mapM buildNamed
    let region ← region.build
    place ⟨type, positional, named, region⟩

def ParameterRecipe.build : ParameterRecipe → Builder (Handle Parameter)
  | register name => Builder.entity .parameter name
  | make name type attributes default region modes => do
    let name ← (name.getD .empty).build
    let type ← type.build
    let attributes ← list (← attributes.mapM AttributeRecipe.build)
    let default ← default.mapM ConstantRecipe.build
    let region ← region.build
    place ⟨name, type, attributes, default, region,
      modes.foldl (fun f m => f.put m.1 m.2) ParameterFlags.none⟩

def MethodRecipe.build : MethodRecipe → Builder (Handle Method)
  | register name => Builder.entity .method name
  | make name returns parameters attributes typeParameters accessibility modifiers region => do
    let name ← name.build
    let returns ← returns.build
    let parameters ← list (← parameters.mapM ParameterRecipe.build)
    let attributes ← list (← attributes.mapM AttributeRecipe.build)
    let typeParameters ← typeParameters.mapM text
    let region ← region.build
    place ⟨name, returns, parameters, attributes, typeParameters, accessibility, modifiers, region⟩

def DefinitionRecipe.build (r : DefinitionRecipe) : Builder (Handle Definition) := do
  let ns ← buildNs r.ns
  let name ← text r.name
  let bases ← list (← r.bases.mapM TypeRecipe.build)
  let methods ← list (← r.methods.mapM MethodRecipe.build)
  let attributes ← list (← r.attributes.mapM AttributeRecipe.build)
  let region ← r.region.build
  place ⟨ns, name, r.kind, r.accessibility, bases, methods, attributes, region⟩

def ProbeRecipe.build (series : ProbeSeries) : ProbeRecipe → Builder (Handle Probe)
  | register name => Builder.entity (.probe series) name
  | make hash tag child frozen => do
    let child ← match child with
      | none => pure none
      | some r => do
        let x ← build series r
        pure (some x)
    let x ← place (.mk hash tag child)
    if frozen then modify fun s => { s with frozen := x.id :: s.frozen }
    return x

namespace Kind

def build : (k : Kind) → k.Recipe → Builder (Handle k.Carrier)
  | typeRef => TypeRecipe.build
  | constant => ConstantRecipe.build
  | attr => AttributeRecipe.build
  | parameter => ParameterRecipe.build
  | method => MethodRecipe.build
  | probe series => ProbeRecipe.build series

end Kind

/-- What a second holder of an item gets: the same object, or a copy of a list. A definition has one
owner. -/
def Item.share : Item → Builder Item
  | list k l => return list k (l.copy (← label))
  | definition _ => failure
  | i => return i

def ItemRecipe.build : ItemRecipe → Builder Item
  | nothing => return .nothing
  | register name => do (← Builder.register name).share
  | text t => return .text (← t.build)
  | entity k r => return .entity k (← k.build r)
  | list k rs => return .list k (← Builder.list (← rs.mapM k.build))
  | definition d => return .definition (← d.build)

def ListEdit.build {α β : Type} (f : α → Builder β) : ListEdit α → Builder (ListEdit β)
  | push x => return push (← f x)
  | insert i x => return insert i (← f x)
  | put i x => return put i (← f x)
  | remove i => return remove i
  | truncate n => return truncate n
  | clear => return clear
  | reverse => return reverse

namespace ChangeRecipe

def forConstant : ChangeRecipe → Builder Constant.Change
  | type t => return .type (← t.build)
  | literal l => return .literal (← l.build)
  | _ => failure

def forAttribute : ChangeRecipe → Builder Attribute.Change
  | type t => return .type (← t.build)
  | positional c => return .positional (← c.build)
  | named n c => return .named (← buildNamed (n, c))
  | region r => return .region (← r.build)
  | _ => failure

def forParameter : ChangeRecipe → Builder Parameter.Change
  | name t => return .name (← t.build)
  | type t => return .type (← t.build)
  | attributes edits => return .attributes (← edits.mapM (ListEdit.build AttributeRecipe.build))
  | default c => return .default (← c.mapM ConstantRecipe.build)
  | region r => return .region (← r.build)
  | mode m on => return .mode m on
  | _ => failure

def forMethod : ChangeRecipe → Builder Method.Change
  | name t => return .name (← t.build)
  | returns t => return .returns (← t.build)
  | parameters edits => return .parameters (← edits.mapM (ListEdit.build ParameterRecipe.build))
  | attributes edits => return .attributes (← edits.mapM (ListEdit.build AttributeRecipe.build))
  | typeParameter s => return .typeParameter (← text s)
  | accessibility a => return .accessibility a
  | modifiers m => return .modifiers m
  | region r => return .region (← r.build)
  | _ => failure

def forDefinition : ChangeRecipe → Builder Definition.Change
  | kind k => return .kind k
  | accessibility a => return .accessibility a
  | base t => return .base (← t.build)
  | method m => return .method (← m.build)
  | attributes [.push a] => return .addAttribute (← a.build)
  | region r => return .region (← r.build)
  | _ => failure

def forKind (c : ChangeRecipe) : (k : Kind) → Builder k.Change
  | .typeRef => failure
  | .constant => c.forConstant
  | .attr => c.forAttribute
  | .parameter => c.forParameter
  | .method => c.forMethod
  | .probe _ => failure

end ChangeRecipe

end CodeModel
