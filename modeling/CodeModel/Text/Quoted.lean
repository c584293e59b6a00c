import CodeModel.Text.GraphemeExtend
import CodeModel.Text.Unprintable

namespace CodeModel.Text

def codePoint (c : Char) : List Char :=
  ['\\', 'u', '\x7b'] ++ Nat.toDigits 16 c.toNat ++ ['\x7d']

def shortEscape? : Char → Option (List Char)
  | '\t' => some ['\\', 't']
  | '\r' => some ['\\', 'r']
  | '\n' => some ['\\', 'n']
  | '\\' => some ['\\', '\\']
  | _ => none

def asciiEscape (c : Char) : List Char :=
  match shortEscape? c with
  | some e => e
  | none =>
    if c = '\'' || c = '"' then ['\\', c]
    else if 0x20 ≤ c.toNat && c.toNat ≤ 0x7e then [c]
    else codePoint c

def isFiller (c : Char) : Bool :=
  c = '\u115f' || c = '\u1160' || c = '\u3164' || c = '\uffa0'

def isSoundMark (c : Char) : Bool := c = '\uff9e' || c = '\uff9f'

def isHidden (c : Char) : Bool :=
  isUnprintable c || isFiller c || (isGraphemeExtend c && !isSoundMark c)

def shownEscape (quote c : Char) : List Char :=
  match shortEscape? c with
  | some e => e
  | none =>
    if c = quote then ['\\', c]
    else if c.toNat = 0 then ['\\', '0']
    else if isHidden c then codePoint c
    else [c]

def quotedAscii (c : Char) : String := String.ofList ('\'' :: asciiEscape c ++ ['\''])

def quotedChar (c : Char) : String := String.ofList ('\'' :: shownEscape '\'' c ++ ['\''])

def quoted (s : String) : String :=
  String.ofList ('"' :: s.toList.flatMap (shownEscape '"') ++ ['"'])

end CodeModel.Text
