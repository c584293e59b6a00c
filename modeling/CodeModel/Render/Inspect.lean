import CodeModel.Decimal.Style
import CodeModel.Entity.Kind
import CodeModel.Text.Quoted

namespace CodeModel

def record (name : String) (fields : List (String × String)) : String :=
  name ++ " \x7b " ++ String.intercalate ", " (fields.map fun f => f.1 ++ ": " ++ f.2) ++ " \x7d"

def bracketed (parts : List String) : String := "[" ++ String.intercalate ", " parts ++ "]"

def optional : Option String → String
  | none => "None"
  | some s => "Some(" ++ s ++ ")"

def Text.inspect (s : Text) : String := Text.quoted s.val

def Region.inspect (r : Region) : String :=
  record "DomRegion" [("file_name", optional (r.file.map Text.inspect)), ("begin", r.start.inspect),
    ("end", r.stop.inspect)]

def Literal.inspect : Literal → String
  | .null => "Null"
  | .bool b => "Bool(" ++ (if b then "true" else "false") ++ ")"
  | .int n => "Int(" ++ toString n.toInt ++ ")"
  | .uint n => "UInt(" ++ toString n.toNat ++ ")"
  | .float bits => "Float(" ++ Decimal.general.write bits ++ ")"
  | .char c => "Char(" ++ Text.quotedChar c ++ ")"
  | .string s => "String(" ++ s.inspect ++ ")"

section

variable (frozen : Nat → Bool)

def freezeField (id : Nat) : String × String :=
  ("freeze", if frozen id then "frozen" else "mutable")

def EntityList.inspectBy {α : Type} (f : Handle α → String) (l : EntityList α) : String :=
  bracketed (l.items.map f)

def TypeRef.inspected (id : Nat) (kind : String) : String :=
  record "TypeReference" [freezeField frozen id, ("kind", kind)]

mutual

def TypeRef.inspect (id : Nat) : TypeRef → String
  | .unknown => TypeRef.inspected frozen id "Unknown"
  | .null => TypeRef.inspected frozen id "Null"
  | .dynamic => TypeRef.inspected frozen id "Dynamic"
  | .named ns name args =>
    TypeRef.inspected frozen id (record "Named" [("namespace", ns.inspect), ("name", name.inspect),
      ("type_arguments", bracketed (TypeRef.inspectAll args.items))])
  | .array e rank =>
    TypeRef.inspected frozen id (record "Array" [("element", e.val.inspect e.id),
      ("dimensions", toString rank.toNat)])
  | .byRef e =>
    TypeRef.inspected frozen id (record "ByReference" [("element", e.val.inspect e.id)])

def TypeRef.inspectAll : List (Handle TypeRef) → List String
  | [] => []
  | x :: xs => x.val.inspect x.id :: TypeRef.inspectAll xs

end

def Constant.inspect (id : Nat) (c : Constant) : String :=
  record "ConstantValue" [freezeField frozen id, ("ty", c.type.val.inspect frozen c.type.id),
    ("literal", c.literal.inspect)]

def NamedArgument.inspect (n : NamedArgument) : String :=
  record "NamedArgument" [("name", n.name.inspect), ("value", n.value.val.inspect frozen n.value.id)]

def Attribute.inspect (id : Nat) (a : Attribute) : String :=
  record "Attribute" [freezeField frozen id,
    ("attribute_type", a.type.val.inspect frozen a.type.id),
    ("positional_arguments", a.positional.inspectBy fun c => c.val.inspect frozen c.id),
    ("named_arguments", bracketed (a.named.map (NamedArgument.inspect frozen))),
    ("region", a.region.inspect)]

def Parameter.inspect (id : Nat) (p : Parameter) : String :=
  record "Parameter" [freezeField frozen id, ("name", p.name.inspect),
    ("ty", p.type.val.inspect frozen p.type.id),
    ("attributes", p.attributes.inspectBy fun a => a.val.inspect frozen a.id),
    ("default_value", optional (p.default.map fun c => c.val.inspect frozen c.id)),
    ("region", p.region.inspect), ("flags", p.flags.inspect)]

def Method.inspect (id : Nat) (m : Method) : String :=
  record "Method" [freezeField frozen id, ("name", m.name.inspect),
    ("return_type", m.returns.val.inspect frozen m.returns.id),
    ("parameters", m.parameters.inspectBy fun p => p.val.inspect frozen p.id),
    ("attributes", m.attributes.inspectBy fun a => a.val.inspect frozen a.id),
    ("type_parameters", bracketed (m.typeParameters.map Text.inspect)),
    ("accessibility", m.accessibility.name), ("modifiers", m.modifiers.inspect),
    ("region", m.region.inspect)]

def Definition.inspect (id : Nat) (d : Definition) : String :=
  record "TypeDefinition" [freezeField frozen id, ("namespace", d.ns.inspect),
    ("name", d.name.inspect), ("kind", d.kind.name), ("accessibility", d.accessibility.name),
    ("base_types", d.bases.inspectBy fun t => t.val.inspect frozen t.id),
    ("methods", d.methods.inspectBy fun m => m.val.inspect frozen m.id),
    ("attributes", d.attributes.inspectBy fun a => a.val.inspect frozen a.id),
    ("region", d.region.inspect)]

def Kind.inspect? : (k : Kind) → Handle k.Carrier → Option String
  | typeRef => fun x => some (x.val.inspect frozen x.id)
  | constant => fun x => some (x.val.inspect frozen x.id)
  | attr => fun x => some (x.val.inspect frozen x.id)
  | parameter => fun x => some (x.val.inspect frozen x.id)
  | method => fun x => some (x.val.inspect frozen x.id)
  | probe _ => fun _ => none

end

end CodeModel
