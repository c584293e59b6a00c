import CodeModel.Entity.Kind
import CodeModel.Hasher
import CodeModel.ModelError

namespace CodeModel

namespace Kind

def words : (k : Kind) → k.Carrier → List Nat
  | typeRef => fun t => 0 :: t.words
  | constant => fun c => 1 :: c.words
  | attr => fun a => 2 :: a.words
  | parameter => fun p => 3 :: p.words
  | method => fun m => 4 :: m.words
  | probe _ => fun p => [p.hash.toNat]

def fingerprint (h : Hasher) : (k : Kind) → k.Carrier → UInt64
  | probe _, p => p.hash
  | k, v => h.digest (k.words v)

def contractFailure? (h : Hasher) (k : Kind) (v w : k.Carrier) : Option ModelError :=
  let left := k.fingerprint h v
  let right := k.fingerprint h w
  if k.same v w && left != right then some (.hashMismatch k.name left right) else none

end Kind

def listFingerprint {α : Type} (h : Hasher) (items : List (Handle α)) : UInt64 :=
  h.digest (items.length :: items.map Handle.id)

end CodeModel
