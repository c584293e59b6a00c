namespace CodeModel

inductive ModelError where
  | frozenMutation (entity : String)
  | preparedAfterFreeze (entity : String)
  | hashMismatch (entity : String) (left right : UInt64)
deriving DecidableEq

def hexWord (w : UInt64) : String :=
  let ds := Nat.toDigits 16 w.toNat
  "0x" ++ String.ofList (List.replicate (16 - ds.length) '0' ++ ds)

namespace ModelError

def message : ModelError → String
  | frozenMutation entity => "frozen " ++ entity ++ " mutated"
  | preparedAfterFreeze entity =>
    "interning contract violated: " ++ entity ++ " was prepared for interning after it was frozen"
  | hashMismatch entity left right =>
    "interning contract violated: equal " ++ entity ++ " values hash to " ++ hexWord left ++ " and " ++
      hexWord right

end ModelError

end CodeModel
