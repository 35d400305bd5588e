/-!
How deep a pattern nests. Only heights are kept of what has been read, as only they count later.
-/
namespace SpanWire.Pattern

/-- The height of parts side by side. One alone is not nested, and nothing has no height. -/
def heightOf : List Nat → Nat
  | [] => 0
  | [h] => h
  | hs => 1 + hs.foldl max 0

/-- The greatest height of a pattern. -/
def maxHeight : Nat := 250

end SpanWire.Pattern
