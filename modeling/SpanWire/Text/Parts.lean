/-! The parts of a text between the separators in it. -/
namespace SpanWire.Text

/-- The parts, given the characters before the text in reverse. -/
def partsFrom (sep : Char) (seen : List Char) : List Char → List (List Char)
  | [] => [seen.reverse]
  | c :: cs => if c = sep then seen.reverse :: partsFrom sep [] cs else partsFrom sep (c :: seen) cs

/-- One part more than there are separators, so that the empty text is one empty part. -/
def parts (sep : Char) (s : String) : List String :=
  (partsFrom sep [] s.toList).map String.ofList

end SpanWire.Text
