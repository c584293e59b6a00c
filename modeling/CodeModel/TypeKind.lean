namespace CodeModel

inductive TypeKind where
  | classType
  | structType
  | interfaceType
  | enumType
  | delegateType
deriving DecidableEq

namespace TypeKind

def all : List TypeKind := [classType, structType, interfaceType, enumType, delegateType]

def name : TypeKind → String
  | classType => "Class"
  | structType => "Struct"
  | interfaceType => "Interface"
  | enumType => "Enum"
  | delegateType => "Delegate"

def keyword : TypeKind → String
  | classType => "class"
  | structType => "struct"
  | interfaceType => "interface"
  | enumType => "enum"
  | delegateType => "delegate"

end TypeKind

end CodeModel
