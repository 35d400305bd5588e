import SpanWire.Text.Decimal

/-! Messages that end by telling the place they are about, as in `text at line 3 column 4`. -/
namespace SpanWire.Text

/-- A message that ends so, taken apart. -/
structure Placed where
  text : String
  line : List Char
  column : List Char
  deriving DecidableEq, Repr

/-- Takes digits and a word before them from the end of a text, which is given in reverse. -/
def takeCount? (word : String) (s : List Char) : Option (List Char × List Char) :=
  let digits := s.takeWhile isDigit
  if digits = [] then none
  else
    (word.toList.reverse.isPrefixOf? (s.dropWhile isDigit)).map fun rest => (digits.reverse, rest)

namespace Placed

/-- The last such ending of a message, with one digit at least for each number. -/
def ofMessage? (message : String) : Option Placed := do
  let (column, rest) ← takeCount? " column " message.toList.reverse
  let (line, rest) ← takeCount? " at line " rest
  return ⟨String.ofList rest.reverse, line, column⟩

/-- Whether the place has numbers of 64 bits. -/
def isCounted (p : Placed) : Bool :=
  (natBelow? UInt64.size p.line).isSome && (natBelow? UInt64.size p.column).isSome

/-- Lines are counted from one, so that line zero is no place. -/
def isNowhere (p : Placed) : Bool :=
  p.isCounted && p.line.all (· = '0')

end Placed

/-- The message without the place at its end. -/
def dropPlace (message : String) : String :=
  match Placed.ofMessage? message with
  | some p => p.text
  | none => message

end SpanWire.Text
