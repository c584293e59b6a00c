import CodeModel.Entity.Definition
import CodeModel.Entity.Probe

/-! The kinds of entity that can be shared, each with the type of its values. -/

namespace CodeModel

inductive ProbeSeries where
  | first
  | second
deriving DecidableEq

inductive Kind where
  | typeRef
  | constant
  | attr
  | parameter
  | method
  | probe (series : ProbeSeries)
deriving DecidableEq

namespace Kind

abbrev Carrier : Kind → Type
  | typeRef => TypeRef
  | constant => Constant
  | attr => Attribute
  | parameter => Parameter
  | method => Method
  | probe _ => Probe

def name : Kind → String
  | typeRef => "type reference"
  | constant => "constant value"
  | attr => "attribute"
  | parameter => "parameter"
  | method => "method"
  | probe .first => "probe"
  | probe .second => "probe2"

/-- Equality for interning: plain fields by value, texts, children and lists by identity. -/
def same : (k : Kind) → k.Carrier → k.Carrier → Bool
  | typeRef => TypeRef.same
  | constant => Constant.same
  | attr => Attribute.same
  | parameter => Parameter.same
  | method => Method.same
  | probe _ => Probe.same

def copy : (k : Kind) → Nat → k.Carrier → k.Carrier
  | typeRef => TypeRef.copy
  | constant => fun _ c => c
  | attr => Attribute.copy
  | parameter => Parameter.copy
  | method => Method.copy
  | probe _ => fun _ p => p

end Kind

def Definition.kindName : String := "type definition"

end CodeModel
