/-! Handles: values with an identity. Two handles with one label are the same object. -/

namespace CodeModel

structure Handle (α : Type) where
  id : Nat
  val : α
deriving DecidableEq

abbrev Text := Handle String

def Text.empty : Text := ⟨0, ""⟩

end CodeModel
