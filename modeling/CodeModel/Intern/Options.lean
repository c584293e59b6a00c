namespace CodeModel

structure Options where
  preInternCommon : Bool
  expectedEntities : UInt64
deriving DecidableEq

def Options.default : Options := ⟨true, 1024⟩

end CodeModel
