import CodeModel.Accessibility
import CodeModel.Intern.Options
import CodeModel.Json.Reader
import CodeModel.Json.Writer
import CodeModel.Region
import CodeModel.TypeKind

/-! Values that are kept as JSON. A record is an object, or an array of its fields in order. -/

namespace CodeModel

namespace Json

def named? : List (List Char × Json) → Option (List (String × Json))
  | [] => some []
  | (k, v) :: ms => do
    let k ← decode? k
    let ms ← named? ms
    return (k, v) :: ms

/-- The value of a field: `none` if it stands twice, `some none` if it is missing. -/
def field? (members : List (String × Json)) (name : String) : Option (Option Json) :=
  match members.filter (·.1 == name) with
  | [] => some none
  | [m] => some (some m.2)
  | _ => none

def required? {α : Type} (members : List (String × Json)) (name : String) (read : Json → Option α) :
    Option α := do
  let v ← field? members name
  read (← v)

def defaulted? {α : Type} (members : List (String × Json)) (name : String) (missing : α)
    (read : Json → Option α) : Option α := do
  match ← field? members name with
  | none => return missing
  | some v => read v

def nullable? {α : Type} (read : Json → Option α) : Json → Option (Option α)
  | .null => some none
  | v => (read v).map some

def word32? (v : Json) : Option UInt32 := (v.below? UInt32.size).map UInt32.ofNat

def word64? (v : Json) : Option UInt64 := (v.below? UInt64.size).map UInt64.ofNat

def case? {α : Type} (cases : List α) (name : α → String) : Json → Option α
  | .string written => do
    let s ← decode? written
    cases.find? (name · == s)
  | .object [(written, .null)] => do
    let s ← decode? written
    cases.find? (name · == s)
  | _ => none

end Json

namespace Location

def stored (l : Location) : Json :=
  .ofMembers [("line", .ofNat l.line.toNat), ("column", .ofNat l.column.toNat)]

def ofStored? : Json → Option Location
  | .array [line, column] => do
    return ⟨← line.word32?, ← column.word32?⟩
  | .object members => do
    let ms ← Json.named? members
    return ⟨← Json.required? ms "line" Json.word32?, ← Json.required? ms "column" Json.word32?⟩
  | _ => none

end Location

namespace Region

def stored (r : Region) : Json :=
  .ofMembers [("file_name", r.file.elim .null fun f => .ofString f.val), ("begin", r.start.stored),
    ("end", r.stop.stored)]

def ofFields (label : Nat) (file : Option String) (start stop : Location) : Region :=
  ⟨file.map (⟨label, ·⟩), start, stop⟩

def ofStored? (label : Nat) : Json → Option Region
  | .array [file, start, stop] => do
    return .ofFields label (← Json.nullable? Json.string? file) (← Location.ofStored? start)
      (← Location.ofStored? stop)
  | .object members => do
    let ms ← Json.named? members
    return .ofFields label (← Json.defaulted? ms "file_name" none (Json.nullable? Json.string?))
      (← Json.required? ms "begin" Location.ofStored?) (← Json.required? ms "end" Location.ofStored?)
  | _ => none

end Region

namespace Accessibility

def stored (a : Accessibility) : Json := .ofString a.name

def ofStored? : Json → Option Accessibility := Json.case? all name

end Accessibility

namespace TypeKind

def stored (k : TypeKind) : Json := .ofString k.name

def ofStored? : Json → Option TypeKind := Json.case? all name

end TypeKind

namespace Options

def stored (o : Options) : Json :=
  .ofMembers [("preInternCommon", .bool o.preInternCommon),
    ("expectedEntities", .ofNat o.expectedEntities.toNat)]

def ofStored? : Json → Option Options
  | .array [] => some default
  | .array [common] => do
    return { default with preInternCommon := ← common.bool? }
  | .array [common, expected] => do
    return ⟨← common.bool?, ← expected.word64?⟩
  | .object members => do
    let ms ← Json.named? members
    return ⟨← Json.defaulted? ms "preInternCommon" default.preInternCommon Json.bool?,
      ← Json.defaulted? ms "expectedEntities" default.expectedEntities Json.word64?⟩
  | _ => none

end Options

end CodeModel
