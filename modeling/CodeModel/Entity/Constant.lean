import CodeModel.Entity.TypeRef

namespace CodeModel

/-- The payload of a constant. A float is its bit pattern. -/
inductive Literal where
  | null
  | bool (b : Bool)
  | int (n : Int64)
  | uint (n : UInt64)
  | float (bits : UInt64)
  | char (c : Char)
  | string (s : Text)

namespace Literal

def isPlain : Literal → Bool
  | string _ => false
  | _ => true

def same : Literal → Literal → Bool
  | null, null => true
  | bool a, bool b => a == b
  | int a, int b => a == b
  | uint a, uint b => a == b
  | float a, float b => a == b
  | char a, char b => a == b
  | string a, string b => a.id == b.id
  | _, _ => false

def words : Literal → List Nat
  | null => [0]
  | bool b => [1, b.toNat]
  | int n => [2, n.toUInt64.toNat]
  | uint n => [3, n.toNat]
  | float bits => [4, bits.toNat]
  | char c => [5, c.toNat]
  | string s => [6, s.id]

end Literal

structure Constant where
  type : Handle TypeRef
  literal : Literal

namespace Constant

def null : Constant := ⟨SharedType.null.handle, .null⟩

def same (c d : Constant) : Bool := c.type.id == d.type.id && c.literal.same d.literal

def words (c : Constant) : List Nat := c.type.id :: c.literal.words

end Constant

end CodeModel
