import SpanWire.Hex

/-!
JSON values and their compact text: no blanks, members in the order given, and escapes only where
the grammar asks for one.
-/
namespace SpanWire.Json

inductive Value
  | null
  | bool (b : Bool)
  | number (n : Nat)
  | text (s : String)
  | array (items : List Value)
  | object (members : List (String × Value))

/-- A quote, a backslash and the characters below U+0020 are escaped, all others stand for
themselves. -/
def escape (c : Char) : List Char :=
  if c = '"' then ['\\', '"']
  else if c = '\\' then ['\\', '\\']
  else if c = '\x08' then ['\\', 'b']
  else if c = '\x0c' then ['\\', 'f']
  else if c = '\n' then ['\\', 'n']
  else if c = '\r' then ['\\', 'r']
  else if c = '\t' then ['\\', 't']
  else if c.toNat < 32 then
    ['\\', 'u', '0', '0'] ++ (Hex.digitsOfByte (UInt8.ofNat c.toNat)).map Hex.Digit.toChar
  else [c]

def quote (s : String) : List Char :=
  '"' :: s.toList.flatMap escape ++ ['"']

/-- The parts with a comma between each two. -/
def commaSeparated : List (List Char) → List Char
  | [] => []
  | [part] => part
  | part :: parts => part ++ ',' :: commaSeparated parts

namespace Value

mutual

/-- The compact text of a value. -/
def chars : Value → List Char
  | null => ['n', 'u', 'l', 'l']
  | bool true => ['t', 'r', 'u', 'e']
  | bool false => ['f', 'a', 'l', 's', 'e']
  | number n => Nat.toDigits 10 n
  | text s => quote s
  | array items => '[' :: commaSeparated (itemChars items) ++ [']']
  | object members => '{' :: commaSeparated (memberChars members) ++ ['}']

def itemChars : List Value → List (List Char)
  | [] => []
  | v :: vs => v.chars :: itemChars vs

def memberChars : List (String × Value) → List (List Char)
  | [] => []
  | (key, v) :: ms => (quote key ++ ':' :: v.chars) :: memberChars ms

end

def render (v : Value) : String :=
  String.ofList v.chars

end Value

end SpanWire.Json
