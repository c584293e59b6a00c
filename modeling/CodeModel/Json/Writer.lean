import CodeModel.Json.Value

namespace CodeModel.Json

def writeString (written : List Char) : List Char := '"' :: written ++ ['"']

def enclose (opening closing : Char) (parts : List (List Char)) : List Char :=
  opening :: (parts.intersperse [',']).flatten ++ [closing]

mutual

def write : Json → List Char
  | null => ['n', 'u', 'l', 'l']
  | bool true => ['t', 'r', 'u', 'e']
  | bool false => ['f', 'a', 'l', 's', 'e']
  | number token => token
  | string written => writeString written
  | array items => enclose '[' ']' (writeAll items)
  | object members => enclose '\x7b' '\x7d' (writeMembers members)

def writeAll : List Json → List (List Char)
  | [] => []
  | v :: vs => v.write :: writeAll vs

def writeMembers : List (List Char × Json) → List (List Char)
  | [] => []
  | (k, v) :: ms => (writeString k ++ ':' :: v.write) :: writeMembers ms

end

def text (v : Json) : String := String.ofList v.write

end CodeModel.Json
