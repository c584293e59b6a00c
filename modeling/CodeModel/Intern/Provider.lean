import CodeModel.Intern.Fingerprint
import CodeModel.Intern.Options
import CodeModel.TextPool

/-! Interning providers: the canonical entities and lists of one session, filed by hash. -/

namespace CodeModel

structure Entry (α : Type) where
  hash : UInt64
  entity : Handle α

structure Record (α : Type) where
  hash : UInt64
  storage : Nat
  items : List (Handle α)

structure Stats where
  entities : Nat
  lists : Nat
  strings : Nat
  hits : Nat
  misses : Nat
deriving DecidableEq

structure Provider where
  number : Nat
  pool : TextPool
  entities : (k : Kind) → List (Entry k.Carrier)
  lists : (k : Kind) → List (Record k.Carrier)
  entityCount : Nat
  listCount : Nat
  hits : Nat
  misses : Nat

def putAt {β : Kind → Type} (f : (k : Kind) → β k) (k : Kind) (b : β k) : (k : Kind) → β k :=
  fun j => if h : j = k then h ▸ b else f j

def sameItems {α : Type} : List (Handle α) → List (Handle α) → Bool
  | [], [] => true
  | x :: xs, y :: ys => x.id == y.id && sameItems xs ys
  | _, _ => false

namespace Provider

variable (h : Hasher)

def bucket (p : Provider) (k : Kind) (hash : UInt64) : List (Handle k.Carrier) :=
  ((p.entities k).filter (·.hash == hash)).map Entry.entity

def listBucket (p : Provider) (k : Kind) (hash : UInt64) : List (Record k.Carrier) :=
  (p.lists k).filter (·.hash == hash)

def find? (p : Provider) (k : Kind) (v : k.Carrier) : Option (Handle k.Carrier) :=
  (p.bucket k (k.fingerprint h v)).find? fun x => k.same x.val v

def findList? (p : Provider) (k : Kind) (items : List (Handle k.Carrier)) : Option (Record k.Carrier) :=
  (p.listBucket k (listFingerprint h items)).find? fun r => sameItems r.items items

def register (p : Provider) (k : Kind) (x : Handle k.Carrier) : Provider :=
  { p with
    entities := putAt p.entities k (p.entities k ++ [⟨k.fingerprint h x.val, x⟩])
    entityCount := p.entityCount + 1 }

def recordList (p : Provider) (k : Kind) (storage : Nat) (items : List (Handle k.Carrier)) : Provider :=
  { p with
    lists := putAt p.lists k (p.lists k ++ [⟨listFingerprint h items, storage, items⟩])
    listCount := p.listCount + 1 }

def hit (p : Provider) : Provider := { p with hits := p.hits + 1 }

def miss (p : Provider) : Provider := { p with misses := p.misses + 1 }

def kinds : List Kind :=
  [.typeRef, .constant, .attr, .parameter, .method, .probe .first, .probe .second]

def holds (p : Provider) (id : Nat) : Bool :=
  kinds.any fun k => (p.entities k).any (·.entity.id == id)

/-- A handle is canonical if it is registered under its present hash. What nobody else holds is in
no table. -/
def isCanonical (p : Provider) (held : Nat → Bool) (k : Kind) (x : Handle k.Carrier) : Bool :=
  (p.bucket k (k.fingerprint h x.val)).any (·.id == x.id) && (held x.id || p.holds x.id)

def isCanonicalList (p : Provider) (k : Kind) (l : EntityList k.Carrier) : Bool :=
  l.sealed && (p.listBucket k (listFingerprint h l.items)).any (·.storage == l.storage)

def canonicalCount (p : Provider) (k : Kind) (v : k.Carrier) : Nat :=
  ((p.bucket k (k.fingerprint h v)).filter fun x => k.same x.val v).length

def stats (p : Provider) : Stats :=
  ⟨p.entityCount, p.listCount, p.pool.size, p.hits, p.misses⟩

def isEmpty (p : Provider) : Bool := p.entityCount ≤ SharedType.all.length

def inspectStats (s : Stats) : String :=
  "InternStats \x7b entities: " ++ toString s.entities ++ ", lists: " ++ toString s.lists ++
    ", strings: " ++ toString s.strings ++ ", hits: " ++ toString s.hits ++ ", misses: " ++
    toString s.misses ++ " \x7d"

def inspect (number : String) (p : Provider) : String :=
  "InterningProvider \x7b id: " ++ number ++ ", stats: " ++ inspectStats p.stats ++ " \x7d"

def create (number label : Nat) (options : Options) : Provider :=
  let pool := if options.preInternCommon then TextPool.empty.internCommon h label else .empty
  SharedType.all.foldl (fun p t => p.register h .typeRef t.handle)
    ⟨number, pool, fun _ => [], fun _ => [], 0, 0, 0, 0⟩

end Provider

end CodeModel
