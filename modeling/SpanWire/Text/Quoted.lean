import SpanWire.Text.Unprintable

/-! Texts quoted for a diagnostic, so that every character can be told apart. -/
namespace SpanWire.Text

/-- The code point in lowercase hexadecimal between braces. -/
def byNumber (c : Char) : List Char :=
  ['\\', 'u', '{'] ++ Nat.toDigits 16 c.toNat ++ ['}']

def showChar (c : Char) : List Char :=
  if c = '\x00' then ['\\', '0']
  else if c = '\t' then ['\\', 't']
  else if c = '\n' then ['\\', 'n']
  else if c = '\r' then ['\\', 'r']
  else if c = '"' then ['\\', '"']
  else if c = '\\' then ['\\', '\\']
  else if c.toNat < 32 then byNumber c
  else if c.toNat < 127 then [c]
  else if isUnprintable c then byNumber c
  else [c]

def quoted (s : String) : String :=
  String.ofList ('"' :: s.toList.flatMap showChar ++ ['"'])

end SpanWire.Text
