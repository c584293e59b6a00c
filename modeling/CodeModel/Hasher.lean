namespace CodeModel

structure Hasher where
  digest : List Nat → UInt64
  shard : String → Fin 64

namespace Hasher

def mix (h : UInt64) (n : Nat) : UInt64 := (h ^^^ n.toUInt64) * 0x100000001b3

def fold (words : List Nat) : UInt64 := words.foldl mix 0xcbf29ce484222325

def standard : Hasher where
  digest := fold
  shard s := Fin.ofNat 64 (fold (s.toList.map Char.toNat)).toNat

end Hasher

end CodeModel
