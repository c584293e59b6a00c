import CodeModel.Handle

/-! Source locations and regions. Line 0 stands for no location. -/

namespace CodeModel

structure Location where
  line : UInt32
  column : UInt32
deriving DecidableEq

namespace Location

def empty : Location := ⟨0, 0⟩

def isEmpty (l : Location) : Bool := l.line == 0

def compare (l m : Location) : Ordering :=
  (Ord.compare l.line m.line).then (Ord.compare l.column m.column)

def display (l : Location) : String :=
  "(" ++ toString l.line.toNat ++ ", " ++ toString l.column.toNat ++ ")"

def inspect (l : Location) : String :=
  "TextLocation \x7b line: " ++ toString l.line.toNat ++ ", column: " ++ toString l.column.toNat ++ " \x7d"

end Location

structure Region where
  file : Option Text
  start : Location
  stop : Location

namespace Region

def empty : Region := ⟨none, Location.empty, Location.empty⟩

def isEmpty (r : Region) : Bool := r.start.isEmpty

def same (r s : Region) : Bool :=
  r.file.map Handle.val == s.file.map Handle.val && r.start == s.start && r.stop == s.stop

/-- Without an end a region holds the rest of its first line. -/
def contains (r : Region) (l : Location) : Bool :=
  if r.isEmpty || l.compare r.start == .lt then false
  else if r.stop.isEmpty then l.line == r.start.line
  else l.compare r.stop != .gt

def display (r : Region) : String :=
  if r.isEmpty then "[no region]"
  else
    let file := (r.file.map Handle.val).getD "<unknown>"
    if r.stop.isEmpty then file ++ r.start.display
    else file ++ r.start.display ++ "-" ++ r.stop.display

def words (r : Region) : List Nat :=
  let file := match r.file with
    | none => [0]
    | some f => 1 :: f.val.length :: f.val.toList.map Char.toNat
  file ++ [r.start.line.toNat, r.start.column.toNat, r.stop.line.toNat, r.stop.column.toNat]

end Region

end CodeModel
