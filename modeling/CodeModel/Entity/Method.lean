import CodeModel.Accessibility
import CodeModel.Entity.Parameter

namespace CodeModel

structure Method where
  name : Text
  returns : Handle TypeRef
  parameters : EntityList Parameter
  attributes : EntityList Attribute
  typeParameters : List Text
  accessibility : Accessibility
  modifiers : MethodModifiers
  region : Region

def sameTexts : List Text → List Text → Bool
  | [], [] => true
  | s :: ss, t :: ts => s.id == t.id && sameTexts ss ts
  | _, _ => false

namespace Method

def same (m n : Method) : Bool :=
  m.name.id == n.name.id && m.returns.id == n.returns.id && m.parameters.sameStorage n.parameters &&
    m.attributes.sameStorage n.attributes && sameTexts m.typeParameters n.typeParameters &&
    m.accessibility == n.accessibility && m.modifiers == n.modifiers && m.region.same n.region

def words (m : Method) : List Nat :=
  m.name.id :: m.returns.id :: m.parameters.words ++ m.attributes.words ++ m.typeParameters.length ::
    m.typeParameters.map Handle.id ++ m.accessibility.ctorIdx :: m.modifiers.bits.toNat :: m.region.words

def copy (storage : Nat) (m : Method) : Method :=
  { m with parameters := m.parameters.copy storage, attributes := m.attributes.copy (storage + 1) }

end Method

end CodeModel
