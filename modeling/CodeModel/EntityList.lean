import CodeModel.Handle

/-! Lists of entities: the elements and the storage that they stand in. -/

namespace CodeModel

/-- A list of handles together with its storage. Sealed storage is never written to and may be
shared by many lists; other storage belongs to one list. -/
structure EntityList (α : Type) where
  sealed : Bool
  storage : Nat
  items : List (Handle α)

namespace EntityList

variable {α : Type}

def empty : EntityList α := ⟨false, 0, []⟩

def length (l : EntityList α) : Nat := l.items.length

def identity (l : EntityList α) : Option Nat :=
  if l.items.isEmpty then none else some l.storage

def sameStorage (l m : EntityList α) : Bool :=
  l.identity == m.identity && l.length == m.length

def owned (storage : Nat) (l : EntityList α) : EntityList α := ⟨false, storage, l.items⟩

def copy (storage : Nat) (l : EntityList α) : EntityList α :=
  if l.sealed then l else l.owned storage

def words (l : EntityList α) : List Nat := [l.identity.getD 0, l.length]

end EntityList

end CodeModel
