import CodeModel.Entity.Method
import CodeModel.TypeKind

namespace CodeModel

structure Definition where
  ns : Text
  name : Text
  kind : TypeKind
  accessibility : Accessibility
  bases : EntityList TypeRef
  methods : EntityList Method
  attributes : EntityList Attribute
  region : Region

namespace Definition

def fullName (d : Definition) : String :=
  if d.ns.val.isEmpty then d.name.val else d.ns.val ++ "." ++ d.name.val

def findMethods (d : Definition) (name : String) : List (Handle Method) :=
  d.methods.items.filter (·.val.name.val == name)

end Definition

end CodeModel
