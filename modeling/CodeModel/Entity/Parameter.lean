import CodeModel.Entity.Attribute
import CodeModel.Flags

namespace CodeModel

structure Parameter where
  name : Text
  type : Handle TypeRef
  attributes : EntityList Attribute
  default : Option (Handle Constant)
  region : Region
  flags : ParameterFlags

namespace Parameter

def unnamed : Parameter := ⟨.empty, SharedType.unknown.handle, .empty, none, .empty, .none⟩

def isOptional (p : Parameter) : Bool := p.default.isSome

def same (p q : Parameter) : Bool :=
  p.name.id == q.name.id && p.type.id == q.type.id && p.attributes.sameStorage q.attributes &&
    p.default.map Handle.id == q.default.map Handle.id && p.region.same q.region && p.flags == q.flags

def words (p : Parameter) : List Nat :=
  p.name.id :: p.type.id :: p.attributes.words ++ (p.default.elim 0 (·.id + 1)) ::
    p.region.words ++ [p.flags.bits.toNat]

def copy (storage : Nat) (p : Parameter) : Parameter :=
  { p with attributes := p.attributes.copy storage }

end Parameter

end CodeModel
