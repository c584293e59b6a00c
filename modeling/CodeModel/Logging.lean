import CodeModel.Text.Blank

namespace CodeModel

inductive LogFormat where
  | text
  | tree
  | json
deriving DecidableEq

namespace LogFormat

def default : LogFormat := text

def asciiLower (c : Char) : Char := if 'A' ≤ c && c ≤ 'Z' then Char.ofNat (c.toNat + 32) else c

def parse (name : String) : LogFormat :=
  match String.ofList ((Text.trim name.toList).map asciiLower) with
  | "tree" => tree
  | "json" => json
  | _ => text

def name : LogFormat → String
  | text => "Text"
  | tree => "Tree"
  | json => "Json"

end LogFormat

structure LogConfig where
  filter : Option String
  format : LogFormat
deriving DecidableEq

structure Environment where
  modelLog : Option ByteArray
  commonLog : Option ByteArray
  format : Option ByteArray

/-- A variable that is not UTF-8 counts as absent. -/
def readable? (var : Option ByteArray) : Option String := var.bind String.fromUTF8?

namespace LogConfig

def default : LogConfig := ⟨none, .default⟩

def ofEnvironment (env : Environment) : LogConfig :=
  { filter := ((readable? env.modelLog).or (readable? env.commonLog)).filter
      fun s => !Text.allBlank s.toList
    format := ((readable? env.format).map LogFormat.parse).getD .default }

end LogConfig

structure LogOutput where
  current : Option LogConfig

namespace LogOutput

def absent : LogOutput := ⟨none⟩

def install (out : LogOutput) (config : LogConfig) : Bool × LogOutput :=
  match out.current, config.filter with
  | none, some _ => (true, ⟨some config⟩)
  | _, _ => (false, out)

def installAll : LogOutput → List LogConfig → List Bool
  | _, [] => []
  | out, c :: cs => (out.install c).1 :: (out.install c).2.installAll cs

end LogOutput

end CodeModel
