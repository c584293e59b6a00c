import CodeModel.Session.Change

namespace CodeModel

namespace Session

def pool? (s : Session) (name : String) : Option TextPool :=
  (s.pools.lookup name).or ((s.providers.lookup name).map Provider.pool)

def putPool (s : Session) (name : String) (pool : TextPool) : Session :=
  if (s.pools.lookup name).isSome then { s with pools := assign name pool s.pools }
  else
    match s.providers.lookup name with
    | some p => { s with providers := assign name { p with pool } s.providers }
    | none => s

structure PoolOutcome where
  result : Option Text
  found : Option Bool
  adopted : Option Bool
  pooled : Option Bool
  file : Option (Bool × Bool × String)

namespace PoolOutcome

def nothing : PoolOutcome := ⟨none, none, none, none, none⟩

def ofText (t : Text) : PoolOutcome := { nothing with result := some t }

end PoolOutcome

def poolFile (h : Hasher) (p : TextPool) (r : Region) : PoolOutcome × TextPool :=
  match r.file with
  | none => ({ PoolOutcome.nothing with file := some (false, true, r.display) }, p)
  | some f =>
    let (g, p) := p.adopt h f
    let q := { r with file := some g }
    ({ PoolOutcome.nothing with file := some (g.id != f.id, r.same q, q.display) }, p)

def act (h : Hasher) (p : TextPool) : PoolAction → Builder (PoolOutcome × TextPool)
  | .intern s => do
    let (t, p) := p.intern h (← Builder.textLabels 1) s
    return (.ofText t, p)
  | .fetch s => do
    let (t, p) := p.fetch h (← Builder.textLabels 1) s
    return (.ofText t, p)
  | .adopt r => do
    let t ← r.build
    let (u, p) := p.adopt h t
    return ({ PoolOutcome.ofText u with adopted := some (u.id == t.id) }, p)
  | .get s =>
    let t := p.find? h s
    return ({ PoolOutcome.nothing with result := t, found := some t.isSome }, p)
  | .isPooled r => do
    let t ← r.build
    return ({ PoolOutcome.nothing with pooled := some (p.isPooled h t) }, p)
  | .internCommon => do
    let label ← Builder.textLabels TextPool.commonTexts.length
    return (.nothing, p.internCommon h label)
  | .size => return (.nothing, p)
  | .file r => return poolFile h p (← r.build)

def pool (name : String) (action : PoolAction) (target : Option String) : Running := do
  let s ← get
  let p ← Builder.ofOption (s.pool? name)
  let (o, p) ← act s.hasher p action
  modify (·.putPool name p)
  let text ← keep target o.result
  return .pool ⟨p.size, p.isEmpty, p.inspect, text, o.found, o.adopted, o.pooled, o.file⟩
where
  keep : Option String → Option Text → Builder (Option String)
    | some target, some t => do
      assignItem target (.text t)
      return some t.val
    | _, _ => return none

end Session

end CodeModel
