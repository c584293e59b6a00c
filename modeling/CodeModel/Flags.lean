namespace CodeModel

structure ParameterFlags where
  bits : UInt8
deriving DecidableEq

inductive PassingMode where
  | ref
  | out
  | params
deriving DecidableEq

namespace PassingMode

def all : List PassingMode := [ref, out, params]

def bit : PassingMode → UInt8
  | ref => 1
  | out => 2
  | params => 4

def keyword : PassingMode → String
  | ref => "ref"
  | out => "out"
  | params => "params"

def label : PassingMode → String
  | ref => "REF"
  | out => "OUT"
  | params => "PARAMS"

end PassingMode

def flagLabels (labels : List (UInt8 × String)) (bits : UInt8) : String :=
  let known := labels.filter (fun l => bits &&& l.1 != 0)
  let rest := labels.foldl (fun b l => b &&& ~~~l.1) bits
  let hex := "0x" ++ String.ofList (Nat.toDigits 16 rest.toNat)
  String.intercalate " | " (known.map (·.2) ++ if rest != 0 || bits == 0 then [hex] else [])

namespace ParameterFlags

def none : ParameterFlags := ⟨0⟩

def has (f : ParameterFlags) (m : PassingMode) : Bool := f.bits &&& m.bit == m.bit

def put (f : ParameterFlags) (m : PassingMode) (on : Bool) : ParameterFlags :=
  ⟨if on then f.bits ||| m.bit else f.bits &&& ~~~m.bit⟩

def keywords (f : ParameterFlags) : List String :=
  (PassingMode.all.filter f.has).map PassingMode.keyword

def inspect (f : ParameterFlags) : String :=
  "ParameterFlags(" ++ flagLabels (PassingMode.all.map fun m => (m.bit, m.label)) f.bits ++ ")"

end ParameterFlags

structure MethodModifiers where
  bits : UInt8
deriving DecidableEq

namespace MethodModifiers

def none : MethodModifiers := ⟨0⟩

def isStatic (m : MethodModifiers) : Bool := m.bits &&& 1 == 1

def isExtension (m : MethodModifiers) : Bool := m.bits &&& 32 == 32

def inspect (m : MethodModifiers) : String :=
  "MethodModifiers(" ++ flagLabels [(1, "STATIC"), (2, "ABSTRACT"), (4, "VIRTUAL"), (8, "OVERRIDE"),
    (16, "SEALED"), (32, "EXTENSION")] m.bits ++ ")"

end MethodModifiers

end CodeModel
