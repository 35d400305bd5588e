import SpanWire.Wire.Encode
import SpanWire.Wire.Settings
import SpanWire.Wire.Warning

/-! The encoder as a whole: the encoding functions together with the warnings they give. -/
namespace SpanWire.Wire

/-- Warnings are given only while someone listens. -/
structure Codec where
  settings : Settings := {}
  listening : Bool := true
  deriving DecidableEq

/-- A result and the warnings given on the way to it, in order. -/
structure Warned (α : Type) where
  value : α
  warnings : List Warning

namespace Codec

/-- The warnings of one size computation. -/
def warningsOf (c : Codec) (s : Span) : List Warning :=
  if c.listening then s.warnings c.settings.largeFieldThreshold else []

def size (c : Codec) (s : Span) : Warned Nat :=
  ⟨s.size, c.warningsOf s⟩

/-- Writing does not warn. -/
def write (_ : Codec) (s : Span) (b : Buffer) : Put :=
  s.write b

/-- The size that is computed with warnings is the size of the buffer. -/
def encode (c : Codec) (s : Span) : Warned (Array UInt8) :=
  let size := c.size s
  ⟨(s.write (.zeros size.value)).buffer.bytes, size.warnings⟩

/-- All sizes are computed before anything is written. -/
def encodeList (c : Codec) (spans : List Span) : Warned (Array UInt8) :=
  let sizes := spans.map c.size
  let lengths := sizes.map (·.value)
  let buffer := Buffer.zeros (total (lengths.map delimitedFieldSize))
  ⟨(writeFrames buffer (spans.zip lengths)).buffer.bytes, sizes.flatMap (·.warnings)⟩

/-- Each size is computed right before its span is written. -/
def writeList (c : Codec) (b : Buffer) : List Span → Warned Put
  | [] => ⟨.done b, []⟩
  | s :: spans =>
    let size := c.size s
    match s.writeFrame size.value b with
    | .done b =>
      let rest := c.writeList b spans
      ⟨rest.value, size.warnings ++ rest.warnings⟩
    | .overrun b => ⟨.overrun b, size.warnings⟩

/-- The operations of an encoder. Those that write do so into a buffer that all share, from a
position on. -/
inductive Op
  | threshold
  | size (s : Span)
  | encode (s : Span)
  | encodeList (spans : List Span)
  | write (s : Span) (pos : Nat)
  | writeList (spans : List Span) (pos : Nat)

inductive Answer
  | threshold (n : UInt64)
  | size (n : Nat)
  | encoded (bytes : Array UInt8)
  /-- The position reached, and whether the end was run over. -/
  | reached (pos : Nat) (overrun : Bool)
  /-- The bytes written, unless the end was run over. -/
  | written (count : Option Nat)
  deriving DecidableEq

/-- Performs an operation on the shared buffer. -/
def perform (c : Codec) (out : Array UInt8) : Op → Warned (Answer × Array UInt8)
  | .threshold => ⟨(.threshold c.settings.largeFieldThreshold, out), []⟩
  | .size s =>
    let r := c.size s
    ⟨(.size r.value, out), r.warnings⟩
  | .encode s =>
    let r := c.encode s
    ⟨(.encoded r.value, out), r.warnings⟩
  | .encodeList spans =>
    let r := c.encodeList spans
    ⟨(.encoded r.value, out), r.warnings⟩
  | .write s pos =>
    let r := c.write s ⟨out, pos⟩
    ⟨(.reached r.buffer.pos r.isOverrun, r.buffer.bytes), []⟩
  | .writeList spans pos =>
    let r := c.writeList ⟨out, pos⟩ spans
    match r.value with
    | .done b => ⟨(.written (some (b.pos - pos)), b.bytes), r.warnings⟩
    | .overrun b => ⟨(.written none, b.bytes), r.warnings⟩

end Codec

end SpanWire.Wire
