import CodeModel.Entity.Kind
import CodeModel.Intern.Options

namespace CodeModel

inductive Event where
  | created (provider : Nat) (options : Options)
  | copying (provider : Nat) (kind : Kind)
  | reused (provider : Nat) (kind : Kind)
  | registered (provider : Nat) (kind : Kind)
  | listed (provider : Nat) (kind : Kind) (length : Nat)
  | interned (provider : Nat) (definition : String) (methods : Nat)
  | freezing (definition : String) (methods : Nat)

namespace Event

def isDebug : Event → Bool
  | created .. => true
  | _ => false

def target : Event → String
  | interned .. | freezing .. => "tsm_model::type_definition"
  | _ => "tsm_model::intern"

def message : Event → String
  | created .. => "InterningProvider::with_options"
  | copying .. => "intern_shared: handle is shared, preparing a private copy"
  | reused .. => "intern: reused canonical entity"
  | registered .. => "intern: registered canonical entity"
  | listed .. => "intern_object_list"
  | interned .. => "intern_members"
  | freezing .. => "freezing type definition"

end Event

end CodeModel
