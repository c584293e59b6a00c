import CodeModel.EntityList

namespace CodeModel

inductive TypeRef where
  | unknown
  | null
  | dynamic
  | named (ns name : Text) (args : EntityList TypeRef)
  | array (element : Handle TypeRef) (rank : UInt32)
  | byRef (element : Handle TypeRef)

namespace TypeRef

def args : TypeRef → List (Handle TypeRef)
  | named _ _ args => args.items
  | _ => []

def element? : TypeRef → Option (Handle TypeRef)
  | array e _ => some e
  | byRef e => some e
  | _ => none

def ofElement (element : Handle TypeRef) (rank : UInt32) : TypeRef :=
  array element (if rank = 0 then 1 else rank)

def same : TypeRef → TypeRef → Bool
  | unknown, unknown | null, null | dynamic, dynamic => true
  | named ns name args, named ns' name' args' =>
    ns.id == ns'.id && name.id == name'.id && args.sameStorage args'
  | array e rank, array e' rank' => e.id == e'.id && rank == rank'
  | byRef e, byRef e' => e.id == e'.id
  | _, _ => false

def words : TypeRef → List Nat
  | unknown => [0]
  | null => [1]
  | dynamic => [2]
  | named ns name args => [3, ns.id, name.id] ++ args.words
  | array e rank => [4, e.id, rank.toNat]
  | byRef e => [5, e.id]

def copy (storage : Nat) : TypeRef → TypeRef
  | named ns name args => named ns name (args.copy storage)
  | t => t

end TypeRef

inductive SharedType where
  | unknown
  | null
  | dynamic

namespace SharedType

def all : List SharedType := [unknown, null, dynamic]

def handle : SharedType → Handle TypeRef
  | unknown => ⟨0, .unknown⟩
  | null => ⟨1, .null⟩
  | dynamic => ⟨2, .dynamic⟩

end SharedType

end CodeModel
