import CodeModel.Decimal.Style
import CodeModel.Entity.Kind
import CodeModel.Text.Quoted

namespace CodeModel

def commaSeparated (parts : List String) : String := String.intercalate ", " parts

namespace TypeRef

def brackets (rank : UInt32) : String :=
  "[" ++ String.ofList (List.replicate (rank.toNat - 1) ',') ++ "]"

mutual

def display : TypeRef → String
  | unknown => "?"
  | null => "null"
  | dynamic => "dynamic"
  | named ns name args =>
    (if ns.val.isEmpty then "" else ns.val ++ ".") ++ name.val ++
      if args.items.isEmpty then "" else "<" ++ commaSeparated (displayAll args.items) ++ ">"
  | array e rank => e.val.display ++ brackets rank
  | byRef e => e.val.display ++ "&"

def displayAll : List (Handle TypeRef) → List String
  | [] => []
  | x :: xs => x.val.display :: displayAll xs

end

end TypeRef

def Literal.display : Literal → String
  | .null => "null"
  | .bool b => if b then "true" else "false"
  | .int n => toString n.toInt
  | .uint n => toString n.toNat
  | .float bits => Decimal.positional.write bits
  | .char c => Text.quotedAscii c
  | .string s => Text.quoted s.val

def Constant.display (c : Constant) : String := c.literal.display

def Attribute.display (a : Attribute) : String :=
  let args := a.positional.items.map (·.val.display) ++
    a.named.map fun n => n.name.val ++ " = " ++ n.value.val.display
  "[" ++ a.type.val.display ++ (if args.isEmpty then "" else "(" ++ commaSeparated args ++ ")") ++ "]"

def Parameter.display (p : Parameter) : String :=
  String.join (p.flags.keywords.map (· ++ " ")) ++ p.name.val ++ ":" ++ p.type.val.display ++
    match p.default with
    | none => ""
    | some c => " = " ++ c.val.display

def Method.display (m : Method) : String :=
  m.name.val ++
    (if m.typeParameters.isEmpty then "" else "<" ++ commaSeparated (m.typeParameters.map (·.val)) ++ ">") ++
    "(" ++ commaSeparated (m.parameters.items.map (·.val.display)) ++ "):" ++ m.returns.val.display

def Definition.display (d : Definition) : String :=
  (match d.accessibility.keyword? with
    | none => ""
    | some k => k ++ " ") ++ d.kind.keyword ++ " " ++ d.fullName

def Kind.display? : (k : Kind) → k.Carrier → Option String
  | typeRef => fun t => some t.display
  | constant => fun c => some c.display
  | attr => fun a => some a.display
  | parameter => fun p => some p.display
  | method => fun m => some m.display
  | probe _ => fun _ => none

end CodeModel
