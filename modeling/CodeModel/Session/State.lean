import CodeModel.Intern.Prepare
import CodeModel.Session.Item

/-! Sessions: named registers, providers and pools, with the freeze marks of all entities. -/

namespace CodeModel

structure Session where
  hasher : Hasher
  registers : List (String × Item)
  providers : List (String × Provider)
  pools : List (String × TextPool)
  frozen : Frozen
  nextObject : Nat
  nextText : Nat
  nextProvider : Nat
  events : List Event

def assign {α : Type} (name : String) (a : α) : List (String × α) → List (String × α)
  | [] => [(name, a)]
  | b :: bs => if b.1 == name then (name, a) :: bs else b :: assign name a bs

def unassign {α : Type} (name : String) (bs : List (String × α)) : List (String × α) :=
  bs.filter (·.1 != name)

namespace Session

def initial (hasher : Hasher) : Session :=
  ⟨hasher, [], [], [], .initial, 3, 1, 0, []⟩

def register? (s : Session) (r : String) : Option Item := s.registers.lookup r

def put (s : Session) (r : String) (i : Item) : Session :=
  { s with registers := assign r i s.registers }

def emit (s : Session) (e : Event) : Session := { s with events := s.events ++ [e] }

/-- What is held without register `r` and provider `p`: by the other registers and what they hold, by
the other providers, and the shared types by the process. -/
def heldBeside (s : Session) (r p : Option String) : Held :=
  let marks := (r.elim s.registers (unassign · s.registers)).foldl (fun m b => b.2.mark m)
    SharedType.marks
  let providers := p.elim s.providers (unassign · s.providers)
  fun id => marks.contains id || providers.any (·.2.holds id)

def isSoleHolder (s : Session) (r : String) (id : Nat) : Bool := !s.heldBeside (some r) none id

def addProvider (s : Session) (name : String) (options : Options) : Session :=
  let p := Provider.create s.hasher s.nextProvider s.nextText options
  { s with
    providers := assign name p s.providers
    nextText := s.nextText + TextPool.commonTexts.length
    nextProvider := s.nextProvider + 1
    events := s.events ++ [.created s.nextProvider options] }

def interning? {α : Type} (s : Session) (name : String) (act : Setting → Interning α) :
    Option (α × Option ModelError × Session) := do
  let p ← s.providers.lookup name
  let (a, w) := (act ⟨s.hasher, s.frozen⟩).run ⟨p, s.nextObject, s.events, none⟩
  return (a, w.failure, { s with
    providers := assign name w.provider s.providers
    nextObject := w.next
    events := w.events })

end Session

end CodeModel
