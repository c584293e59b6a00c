import CodeModel.Session.Change

namespace CodeModel

def ItemSource.take : ItemSource → Builder Item
  | .recipe r => r.build
  | .register name => do
    let i ← Builder.register name
    modify fun s => { s with registers := unassign name s.registers }
    return i

namespace Session

def provider (name : String) : Builder Provider := do
  Builder.ofOption ((← get).providers.lookup name)

def statsOf (name : String) : Builder Stats := return (← provider name).stats

def interning {α : Type} (name : String) (act : Setting → Interning α) :
    Builder (α × Option ModelError) := do
  match (← get).interning? name act with
  | some (a, e, s) =>
    set s
    return (a, e)
  | none => failure

def intern (p register : String) : Running := do
  let held := (← get).heldBeside (some register) (some p)
  match ← Builder.register register with
  | .nothing => return .internedNothing (← statsOf p)
  | .text t =>
    let (u, e) ← interning p fun s => poolText s t
    assignItem register (.text u)
    return .interned e (some (u.id != t.id)) none (← statsOf p)
  | .entity k x =>
    let (y, e) ← interning p fun s => k.intern s held x
    assignItem register (.entity k y)
    return .interned e (some (y.id != x.id)) none (← statsOf p)
  | .list k l =>
    let (m, e) ← interning p fun s => k.internList s l
    assignItem register (.list k m)
    return .interned e (some (m.identity != l.identity)) (some m.sealed) (← statsOf p)
  | .definition d =>
    let (d, e) ← interning p fun s => Definition.internMembers s d
    assignItem register (.definition d)
    return .interned e none none (← statsOf p)

def internOptional (p register : String) : Running := do
  match ← Builder.register register with
  | .nothing | .entity .. => intern p register
  | _ => failure

/-- Interns an entity by value and puts the result into `target`. An entity that something still
holds is refused. -/
def internObject (p : String) (source : ItemSource) (target : String) : Running := do
  match ← source.take with
  | .entity k x =>
    let s ← get
    if s.heldBeside none none x.id then return .shared
    let (y, e) ← interning p fun st => k.intern st (s.heldBeside none (some p)) x
    match e with
    | some e => return .notMade e (← statsOf p)
    | none =>
      assignItem target (.entity k y)
      return .made (k.display? y.val) (← statsOf p)
  | _ => failure

def prepare (p register : String) : Running := do
  match ← Builder.register register with
  | .entity k x =>
    let s ← get
    if s.isSoleHolder register x.id then
      let (y, e) ← interning p fun st => k.prepareInPlace st (s.heldBeside (some register) (some p)) x
      assignItem register (.entity k y)
      return .interned e none none (← statsOf p)
    else return .shared
  | _ => failure

def canonical (p register : String) : Running := do
  let s ← get
  let q ← provider p
  match ← Builder.register register with
  | .entity k x =>
    return .canonical (q.isCanonical s.hasher (s.heldBeside (some register) none) k x)
      (q.canonicalCount s.hasher k x.val)
  | .list k l => return .canonicalList (q.isCanonicalList s.hasher k l) l.sealed
  | _ => failure

def sharedTypes (p : String) : Running := do
  let s ← get
  let q ← provider p
  return .sharedTypes (SharedType.all.map fun t =>
    ⟨t.handle.val.display, s.frozen.contains t.handle.id,
      q.isCanonical s.hasher Held.everything .typeRef t.handle,
      q.canonicalCount s.hasher .typeRef t.handle.val⟩)

end Session

end CodeModel
