import CodeModel.Handle
import CodeModel.Hasher
import CodeModel.TextPool.CommonTexts

/-! Text pools: one handle for each spelling, spread over shards by hash. -/

namespace CodeModel

structure TextPool where
  shards : Vector (List Text) 64

namespace TextPool

def empty : TextPool := ⟨Vector.replicate 64 []⟩

def find? (h : Hasher) (p : TextPool) (s : String) : Option Text :=
  if s.isEmpty then some Text.empty
  else (p.shards.get (h.shard s)).find? (·.val == s)

def isPooled (h : Hasher) (p : TextPool) (t : Text) : Bool :=
  (p.find? h t.val).any (·.id == t.id)

def adopt (h : Hasher) (p : TextPool) (t : Text) : Text × TextPool :=
  match p.find? h t.val with
  | some u => (u, p)
  | none => (t, ⟨p.shards.set (h.shard t.val) (t :: p.shards.get (h.shard t.val))⟩)

def intern (h : Hasher) (p : TextPool) (label : Nat) (s : String) : Text × TextPool :=
  p.adopt h ⟨label, s⟩

def fetch (h : Hasher) (p : TextPool) (label : Nat) (s : String) : Text × TextPool :=
  match p.find? h s with
  | some t => (t, p)
  | none => p.adopt h ⟨label, s⟩

def internAll (h : Hasher) (p : TextPool) : Nat → List String → TextPool
  | _, [] => p
  | label, s :: ss => internAll h (p.intern h label s).2 (label + 1) ss

def internCommon (h : Hasher) (p : TextPool) (label : Nat) : TextPool :=
  p.internAll h label commonTexts

def size (p : TextPool) : Nat := 1 + p.shards.toList.flatten.length

def isEmpty (p : TextPool) : Bool := p.size ≤ 1

def inspect (p : TextPool) : String := "StringPool \x7b len: " ++ toString p.size ++ " \x7d"

end TextPool

end CodeModel
