/-! JSON values. Numbers and strings keep the form in which they are written, so that reading loses nothing. -/

namespace CodeModel

inductive Json where
  | null
  | bool (b : Bool)
  | number (token : List Char)
  | string (written : List Char)
  | array (items : List Json)
  | object (members : List (List Char × Json))

namespace Json

def hexDigit? (c : Char) : Option Nat :=
  if '0' ≤ c && c ≤ '9' then some (c.toNat - 48)
  else if 'a' ≤ c && c ≤ 'f' then some (c.toNat - 87)
  else if 'A' ≤ c && c ≤ 'F' then some (c.toNat - 55)
  else none

def hex? (cs : List Char) : Option Nat :=
  cs.foldl (fun n c => n.bind fun n => (hexDigit? c).map (16 * n + ·)) (some 0)

/-- A character of a string, or a UTF-16 unit that is written as an escape. -/
inductive Piece where
  | char (c : Char)
  | unit (u : Nat)

def simpleEscape? : Char → Option Char
  | '"' => some '"'
  | '\\' => some '\\'
  | '/' => some '/'
  | 'b' => some '\x08'
  | 'f' => some '\x0c'
  | 'n' => some '\n'
  | 'r' => some '\r'
  | 't' => some '\t'
  | _ => none

def pieces? : List Char → Option (List Piece)
  | [] => some []
  | '\\' :: 'u' :: a :: b :: c :: d :: r => do
    let u ← hex? [a, b, c, d]
    let ps ← pieces? r
    return .unit u :: ps
  | '\\' :: c :: r => do
    let c ← simpleEscape? c
    let ps ← pieces? r
    return .char c :: ps
  | c :: r => do
    let ps ← pieces? r
    return .char c :: ps

def isLeading (u : Nat) : Bool := 0xd800 ≤ u && u < 0xdc00

def isTrailing (u : Nat) : Bool := 0xdc00 ≤ u && u < 0xe000

def join? : List Piece → Option (List Char)
  | [] => some []
  | .char c :: r => (join? r).map (c :: ·)
  | .unit u :: r =>
    if isLeading u then
      match r with
      | .unit v :: r =>
        if isTrailing v then
          (join? r).map (Char.ofNat (0x10000 + 0x400 * (u - 0xd800) + (v - 0xdc00)) :: ·)
        else none
      | _ => none
    else if isTrailing u then none
    else (join? r).map (Char.ofNat u :: ·)

def decode? (written : List Char) : Option String := do
  let ps ← pieces? written
  let cs ← join? ps
  return String.ofList cs

def escape (c : Char) : List Char :=
  match c with
  | '"' => ['\\', '"']
  | '\\' => ['\\', '\\']
  | '\x08' => ['\\', 'b']
  | '\x0c' => ['\\', 'f']
  | '\n' => ['\\', 'n']
  | '\r' => ['\\', 'r']
  | '\t' => ['\\', 't']
  | c =>
    if c.toNat < 16 then ['\\', 'u', '0', '0', '0'] ++ Nat.toDigits 16 c.toNat
    else if c.toNat < 32 then ['\\', 'u', '0', '0'] ++ Nat.toDigits 16 c.toNat
    else [c]

def encode (s : String) : List Char := s.toList.flatMap escape

def ofString (s : String) : Json := .string (encode s)

def ofNat (n : Nat) : Json := .number (Nat.toDigits 10 n)

def ofMembers (members : List (String × Json)) : Json :=
  .object (members.map fun m => (encode m.1, m.2))

def string? : Json → Option String
  | .string written => decode? written
  | _ => none

def bool? : Json → Option Bool
  | .bool b => some b
  | _ => none

def digitsValue (cs : List Char) : Nat := cs.foldl (fun n c => 10 * n + (c.toNat - 48)) 0

def below? (bound : Nat) : Json → Option Nat
  | .number token =>
    if token.all Char.isDigit && digitsValue token < bound then some (digitsValue token) else none
  | _ => none

end Json

end CodeModel
