import SpanWire.Text.Ranges

/-! Blanks, as Unicode has them, and texts without the blanks around them. -/
namespace SpanWire.Text

def blanks : Ranges :=
  [(0x9, 0xd), (0x20, 0x20), (0x85, 0x85), (0xa0, 0xa0), (0x1680, 0x1680), (0x2000, 0x200a),
   (0x2028, 0x2029), (0x202f, 0x202f), (0x205f, 0x205f), (0x3000, 0x3000)]

def trim (s : List Char) : List Char :=
  ((s.dropWhile blanks.contains).reverse.dropWhile blanks.contains).reverse

end SpanWire.Text
