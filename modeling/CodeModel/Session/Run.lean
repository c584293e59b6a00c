import CodeModel.Session.Intern
import CodeModel.Session.Pool

/-! Running steps. A step that does not fit the session has no answer and no effect. -/

namespace CodeModel

namespace Session

def equals (a b : String) : Running := do
  let s ← get
  match ← Builder.register a, ← Builder.register b with
  | .entity j x, .entity k y =>
    if h : k = j then
      let y : Handle j.Carrier := h ▸ y
      return .equals (j.same x.val y.val) (j.same y.val x.val)
        (j.contractFailure? s.hasher x.val y.val)
    else failure
  | _, _ => failure

def run : Step → Running
  | .bind target value => do
    assignItem target (← value.build)
    return .ok
  | .drop registers => do
    modify fun s => { s with registers := registers.foldl (fun rs r => unassign r rs) s.registers }
    return .ok
  | .dropProvider p => do
    modify fun s => { s with providers := unassign p s.providers }
    return .ok
  | .newPool target => do
    modify fun s => { s with pools := assign target .empty s.pools }
    return .ok
  | .newProvider target options => do
    modify (·.addProvider target options)
    return .provider (← provider target).view
  | .set register c => change register c fun _ => .ok
  | .edit register c => edit register c
  | .get register path target => do
    match (← Builder.register register).follow? path with
    | some i =>
      assignItem target (← i.share)
      return .found true
    | none => return .found false
  | .same a b => do
    let i ← Builder.register a
    let j ← Builder.register b
    return .same (← Builder.ofOption (i.same? j))
  | .equals a b => equals a b
  | .copyUnfrozen register target => do
    match ← Builder.register register with
    | .entity k x =>
      let storage ← Builder.objectLabels 2
      assignItem target (.entity k (← Builder.place (k.copy storage x.val)))
      return .ok
    | _ => failure
  | .freeze register => freeze register
  | .isFrozen register => isFrozen register
  | .display register => return .display (← Builder.ofOption (← Builder.register register).display?)
  | .inspect register => do
    let frozen := (← get).frozen
    let i ← Builder.register register
    return .inspected (← Builder.ofOption (i.inspect? fun id => frozen.contains id))
  | .findMethods register name => do
    match ← Builder.register register with
    | .definition d =>
      return .methods ((d.val.findMethods name).map fun m =>
        ((d.val.methods.items.findIdx (·.id == m.id)), m.val.display))
    | _ => failure
  | .walk register => do
    let frozen := (← get).frozen
    match ← Builder.register register with
    | .list _ l => return .walk (l.items.map fun x => frozen.contains x.id)
    | _ => failure
  | .sharedTypes p => sharedTypes p
  | .stats p => do
    let q ← provider p
    return .stats q.stats (q.inspect "#") q.isEmpty
  | .intern p register => intern p register
  | .internOptional p register => internOptional p register
  | .internObject p source target => internObject p source target
  | .prepare p register => prepare p register
  | .internString p s target => do
    let t ← Builder.text s
    let (u, _) ← interning p fun st => poolText st t
    assignItem target (.text u)
    return .texts (← provider p).pool.size
  | .canonical p register => canonical p register
  | .pool name action target => pool name action target
  | .dump p => return .dump ((← get).dump p)

def step (s : Session) (st : Step) : Answer × List Event × Session :=
  match (run st).run { s with events := [] } with
  | some (a, s) => (a, s.events, s)
  | none => (.invalid, [], s)

def start (hasher : Hasher) (options : Options) : Session :=
  (initial hasher).addProvider "P" options

end Session

end CodeModel
