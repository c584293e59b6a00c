import CodeModel.Json.Value

namespace CodeModel.Json.Reader

def isSpace (c : Char) : Bool := c = ' ' || c = '\t' || c = '\n' || c = '\r'

def skip (cs : List Char) : List Char := cs.dropWhile isSpace

def after? : List Char → List Char → Option (List Char)
  | [], cs => some cs
  | w :: ws, c :: cs => if w = c then after? ws cs else none
  | _ :: _, [] => none

def string? : List Char → Option (List Char × List Char)
  | [] => none
  | '"' :: r => some ([], r)
  | '\\' :: 'u' :: a :: b :: c :: d :: r => do
    let _ ← hex? [a, b, c, d]
    let (s, r) ← string? r
    return ('\\' :: 'u' :: a :: b :: c :: d :: s, r)
  | '\\' :: c :: r => do
    let _ ← simpleEscape? c
    let (s, r) ← string? r
    return ('\\' :: c :: s, r)
  | c :: r => do
    if c.toNat < 32 then none
    let (s, r) ← string? r
    return (c :: s, r)

def digits? (cs : List Char) : Option (List Char × List Char) :=
  let ds := cs.takeWhile Char.isDigit
  if ds.isEmpty then none else some (ds, cs.dropWhile Char.isDigit)

def whole? : List Char → Option (List Char × List Char)
  | '0' :: r => some (['0'], r)
  | cs => digits? cs

def fraction? : List Char → Option (List Char × List Char)
  | '.' :: r => (digits? r).map fun (ds, r) => ('.' :: ds, r)
  | cs => some ([], cs)

def exponent? : List Char → Option (List Char × List Char)
  | [] => some ([], [])
  | c :: r =>
    if c = 'e' || c = 'E' then
      match r with
      | '+' :: r => (digits? r).map fun (ds, r) => (c :: '+' :: ds, r)
      | '-' :: r => (digits? r).map fun (ds, r) => (c :: '-' :: ds, r)
      | r => (digits? r).map fun (ds, r) => (c :: ds, r)
    else some ([], c :: r)

def unsigned? (cs : List Char) : Option (List Char × List Char) := do
  let (w, r) ← whole? cs
  let (f, r) ← fraction? r
  let (e, r) ← exponent? r
  return (w ++ f ++ e, r)

def number? : List Char → Option (List Char × List Char)
  | '-' :: r => (unsigned? r).map fun (n, r) => ('-' :: n, r)
  | cs => unsigned? cs

def plain? : List Char → Option (Json × List Char)
  | 'n' :: r => (after? ['u', 'l', 'l'] r).map (Json.null, ·)
  | 't' :: r => (after? ['r', 'u', 'e'] r).map (Json.bool true, ·)
  | 'f' :: r => (after? ['a', 'l', 's', 'e'] r).map (Json.bool false, ·)
  | '"' :: r => (string? r).map fun (s, r) => (Json.string s, r)
  | cs => (number? cs).map fun (n, r) => (Json.number n, r)

mutual

def value? : Nat → List Char → Option (Json × List Char)
  | 0, _ => none
  | fuel + 1, cs =>
    match skip cs with
    | '[' :: r =>
      match skip r with
      | ']' :: r => some (.array [], r)
      | r => (items? fuel r).map fun (vs, r) => (.array vs, r)
    | '\x7b' :: r =>
      match skip r with
      | '\x7d' :: r => some (.object [], r)
      | r => (members? fuel r).map fun (ms, r) => (.object ms, r)
    | cs => plain? cs

def items? : Nat → List Char → Option (List Json × List Char)
  | 0, _ => none
  | fuel + 1, cs => do
    let (v, r) ← value? fuel cs
    match skip r with
    | ',' :: r =>
      let (vs, r) ← items? fuel r
      return (v :: vs, r)
    | ']' :: r => return ([v], r)
    | _ => none

def members? : Nat → List Char → Option (List (List Char × Json) × List Char)
  | 0, _ => none
  | fuel + 1, cs => do
    match skip cs with
    | '"' :: r =>
      let (k, r) ← string? r
      match skip r with
      | ':' :: r =>
        let (v, r) ← value? fuel r
        match skip r with
        | ',' :: r =>
          let (ms, r) ← members? fuel r
          return ((k, v) :: ms, r)
        | '\x7d' :: r => return ([(k, v)], r)
        | _ => none
      | _ => none
    | _ => none

end

end Reader

def ofChars? (cs : List Char) : Option Json := do
  let (v, r) ← Reader.value? (2 * cs.length + 2) cs
  if (Reader.skip r).isEmpty then some v else none

def ofText? (text : String) : Option Json := ofChars? text.toList

end CodeModel.Json
