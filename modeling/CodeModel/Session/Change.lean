import CodeModel.Session.Build
import CodeModel.Session.Step

namespace CodeModel

abbrev Running := Builder Answer

namespace Session

def assignItem (target : String) (i : Item) : Builder Unit := modify (·.put target i)

def changed (register : String) (r : Except ModelError Item) (answer : Item → Answer) : Running := do
  match r with
  | .ok i =>
    assignItem register i
    return answer i
  | .error e => return .failed e

/-- Changes the entity of a register. An entity that has other holders is not changed, and a
definition has none. -/
def change (register : String) (c : ChangeRecipe) (answer : Item → Answer) : Running := do
  match ← Builder.register register with
  | .entity k x =>
    let c ← c.forKind k
    let storage ← Builder.label
    let s ← get
    if s.isSoleHolder register x.id then
      changed register ((k.mutate s.frozen storage x c).map (.entity k)) answer
    else return .shared
  | .definition d =>
    let c ← c.forDefinition
    let storage ← Builder.label
    changed register ((Definition.mutate (← get).frozen storage d c).map .definition) answer
  | _ => failure

def obstacle? (s : Session) (register : String) : Option Answer :=
  match s.register? register with
  | some (.entity k x) =>
    if s.isSoleHolder register x.id then
      match (s.frozen.state x.id).checkMutable k.name with
      | .ok _ => none
      | .error e => some (.failed e)
    else some .shared
  | _ => none

def editedLength (c : ChangeRecipe) (i : Item) : Answer :=
  match c, i with
  | .attributes _, .entity .parameter p => .length p.val.attributes.length
  | .attributes _, .entity .method m => .length m.val.attributes.length
  | .parameters _, .entity .method m => .length m.val.parameters.length
  | _, _ => .ok

def edit (register : String) (c : ChangeRecipe) : Running := do
  match (← get).obstacle? register with
  | some refusal => return refusal
  | none => change register c (editedLength c)

def freeze (register : String) : Running := do
  match ← Builder.register register with
  | .entity k x =>
    modify fun s => { s with frozen := k.mark x s.frozen }
    return .frozen ((← get).frozen.contains x.id)
  | .definition d =>
    if !(← get).frozen.contains d.id then
      modify (·.emit (.freezing d.val.fullName d.val.methods.length))
    modify fun s => { s with frozen := Definition.mark d s.frozen }
    return .frozen ((← get).frozen.contains d.id)
  | _ => failure

def isFrozen (register : String) : Running := do
  match ← Builder.register register with
  | .entity _ x => return .frozen ((← get).frozen.contains x.id)
  | .definition d => return .frozen ((← get).frozen.contains d.id)
  | _ => failure

end Session

end CodeModel
