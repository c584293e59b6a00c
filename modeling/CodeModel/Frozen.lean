import CodeModel.FreezeState
import CodeModel.Marks

/-! Freezing an entity marks it after everything it holds. -/

namespace CodeModel

abbrev Frozen := Marks

namespace Frozen

def state (f : Frozen) (id : Nat) : FreezeState := if f.contains id then .frozen else .mutable

def initial : Frozen := SharedType.marks

end Frozen

end CodeModel
