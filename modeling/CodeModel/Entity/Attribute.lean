import CodeModel.Entity.Constant
import CodeModel.Region

namespace CodeModel

structure NamedArgument where
  name : Text
  value : Handle Constant

structure Attribute where
  type : Handle TypeRef
  positional : EntityList Constant
  named : List NamedArgument
  region : Region

namespace Attribute

def sameNamed : List NamedArgument → List NamedArgument → Bool
  | [], [] => true
  | m :: ms, n :: ns => m.name.id == n.name.id && m.value.id == n.value.id && sameNamed ms ns
  | _, _ => false

def same (a b : Attribute) : Bool :=
  a.type.id == b.type.id && a.positional.sameStorage b.positional && sameNamed a.named b.named &&
    a.region.same b.region

def words (a : Attribute) : List Nat :=
  a.type.id :: a.positional.words ++ a.named.length ::
    a.named.flatMap (fun n => [n.name.id, n.value.id]) ++ a.region.words

def copy (storage : Nat) (a : Attribute) : Attribute :=
  { a with positional := a.positional.copy storage }

end Attribute

end CodeModel
