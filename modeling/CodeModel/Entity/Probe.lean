import CodeModel.Handle

/-! Probes: entities that choose their own hash. -/

namespace CodeModel

inductive Probe where
  | mk (hash : UInt64) (tag : Int) (child : Option (Handle Probe))

namespace Probe

def hash : Probe → UInt64
  | mk hash _ _ => hash

def tag : Probe → Int
  | mk _ tag _ => tag

def same (p q : Probe) : Bool := p.tag == q.tag

end Probe

end CodeModel
