import CodeModel.ModelError

namespace CodeModel

inductive FreezeState where
  | mutable
  | frozen
deriving DecidableEq

namespace FreezeState

def isFrozen (s : FreezeState) : Bool := s == frozen

def mark (_ : FreezeState) : FreezeState := frozen

def checkMutable (s : FreezeState) (entity : String) : Except ModelError Unit :=
  if s.isFrozen then throw (.frozenMutation entity) else pure ()

def checkPreparable (s : FreezeState) (entity : String) : Except ModelError Unit :=
  if s.isFrozen then throw (.preparedAfterFreeze entity) else pure ()

def display : FreezeState → String
  | mutable => "mutable"
  | frozen => "frozen"

end FreezeState

end CodeModel
