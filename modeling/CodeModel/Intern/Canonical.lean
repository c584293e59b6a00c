import CodeModel.ModelError
import CodeModel.Frozen
import CodeModel.Intern.Event
import CodeModel.Intern.Provider

/-! Canonicalization. After a failure nothing more happens, and what was replaced before it stays. -/

namespace CodeModel

structure Setting where
  hasher : Hasher
  frozen : Frozen

/-- Labels from `next` on are unused. -/
structure Work where
  provider : Provider
  next : Nat
  events : List Event
  failure : Option ModelError

abbrev Interning := StateM Work

/-- Tells for each label whether a holder other than the slot in hand has its object. -/
abbrev Held := Nat → Bool

namespace Held

def everything : Held := fun _ => true

def nothing : Held := fun _ => false

def and (held : Held) (mark : Marks → Marks) : Held := fun id => held id || (mark []).contains id

end Held

namespace Interning

def unlessFailed {α : Type} (x : α) (act : Interning α) : Interning α := do
  if (← get).failure.isSome then return x else act

def fail (e : ModelError) : Interning Unit := modify fun w => { w with failure := some e }

def emit (e : Event) : Interning Unit := modify fun w => { w with events := w.events ++ [e] }

def update (f : Provider → Provider) : Interning Unit :=
  modify fun w => { w with provider := f w.provider }

def fresh : Interning Nat := modifyGet fun w => (w.next, { w with next := w.next + 1 })

end Interning

open Interning

variable (s : Setting)

def poolText (t : Text) : Interning Text := unlessFailed t do
  let w ← get
  let (u, pool) := w.provider.pool.adopt s.hasher t
  set { w with provider := { w.provider with pool } }
  return u

def poolTexts (ts : List Text) : Interning (List Text) := ts.mapM (poolText s)

def poolRegion (r : Region) : Interning Region := do
  match r.file with
  | none => return r
  | some f =>
    let f ← poolText s f
    return { r with file := some f }

def settle (k : Kind) (x : Handle k.Carrier) : Interning (Handle k.Carrier) := unlessFailed x do
  let p := (← get).provider
  match p.find? s.hasher k x.val with
  | some y =>
    update Provider.hit
    emit (.reused p.number k)
    return y
  | none =>
    update fun p => (p.register s.hasher k x).miss
    emit (.registered p.number k)
    return x

def ifPreparable {α : Type} (id : Nat) (entity : String) (x : α) (act : Interning α) : Interning α :=
  match (s.frozen.state id).checkPreparable entity with
  | .ok _ => act
  | .error e => do
    fail e
    return x

/-- Canonicalizes the handle in a slot. An entity without another holder is prepared in place;
otherwise a private copy is prepared, and if that fails the slot keeps its handle. -/
def canonicalize (k : Kind) (held : Held) (x : Handle k.Carrier)
    (prepare : Held → Interning k.Carrier) : Interning (Handle k.Carrier) := unlessFailed x do
  let p := (← get).provider
  if p.isCanonical s.hasher held k x then return x
  else ifPreparable s x.id k.name x do
    if held x.id || p.holds x.id then
      emit (.copying p.number k)
      let v ← prepare Held.everything
      unlessFailed x do
        let id ← fresh
        settle s k ⟨id, v⟩
    else
      let v ← prepare held
      settle s k ⟨x.id, v⟩

def sealList (k : Kind) (items : List (Handle k.Carrier)) : Interning (EntityList k.Carrier) := do
  let p := (← get).provider
  match p.findList? s.hasher k items with
  | some r =>
    update Provider.hit
    emit (.listed p.number k items.length)
    return ⟨true, r.storage, r.items⟩
  | none =>
    let storage ← fresh
    update fun p => (p.recordList s.hasher k storage items).miss
    emit (.listed p.number k items.length)
    return ⟨true, storage, items⟩

def canonicalizeList (k : Kind) (l : EntityList k.Carrier)
    (elements : Interning (List (Handle k.Carrier))) : Interning (EntityList k.Carrier) :=
  unlessFailed l do
    if l.items.isEmpty || (← get).provider.isCanonicalList s.hasher k l then return l
    let items ← elements
    unlessFailed l (sealList s k items)

end CodeModel
