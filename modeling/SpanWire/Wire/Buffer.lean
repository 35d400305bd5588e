import SpanWire.Text.Utf8
import SpanWire.Wire.Varint

/-!
Writing into a buffer of fixed size. A write that runs over the end leaves the buffer as it is at
that moment: single bytes and the bytes of a varint are stored one at a time, everything else is
stored whole or not at all.
-/
namespace SpanWire.Wire

/-- Bytes and the position where the next one is stored. -/
structure Buffer where
  bytes : Array UInt8
  pos : Nat
  deriving DecidableEq

/-- One write. -/
inductive Write
  | byte (b : UInt8)
  | bytes (bs : List UInt8)
  | varint (v : UInt64)
  | fixed64 (v : UInt64)
  | utf8 (s : String)
  deriving DecidableEq

/-- The least significant byte first. -/
def fixed64 (v : UInt64) : List UInt8 :=
  [v.toUInt8, (v >>> 8).toUInt8, (v >>> 16).toUInt8, (v >>> 24).toUInt8, (v >>> 32).toUInt8,
    (v >>> 40).toUInt8, (v >>> 48).toUInt8, (v >>> 56).toUInt8]

/-- All the bytes a write stores when there is room. -/
def Write.encoding : Write → List UInt8
  | byte b => [b]
  | bytes bs => bs
  | varint v => Wire.varint v
  | fixed64 v => Wire.fixed64 v
  | utf8 s => Text.utf8 s

/-- The buffer left behind, by a write that found room or by one that did not. -/
inductive Put
  | done (b : Buffer)
  | overrun (b : Buffer)
  deriving DecidableEq

def Put.buffer : Put → Buffer
  | done b => b
  | overrun b => b

def Put.isOverrun : Put → Bool
  | done _ => false
  | overrun _ => true

namespace Buffer

def zeros (size : Nat) : Buffer :=
  ⟨Array.replicate size 0, 0⟩

/-- Stores bytes from a position on. -/
def store (bytes : Array UInt8) (pos : Nat) : List UInt8 → Array UInt8
  | [] => bytes
  | b :: bs => store (bytes.setIfInBounds pos b) (pos + 1) bs

/-- Stores bytes one at a time, as far as there is room. -/
def putEach (b : Buffer) : List UInt8 → Put
  | [] => .done b
  | x :: xs =>
    if b.pos < b.bytes.size then putEach ⟨b.bytes.setIfInBounds b.pos x, b.pos + 1⟩ xs
    else .overrun b

/-- Stores all bytes or none. Even no bytes at all need a position inside the buffer or at its
end. -/
def putWhole (b : Buffer) (bs : List UInt8) : Put :=
  if b.pos + bs.length ≤ b.bytes.size then .done ⟨store b.bytes b.pos bs, b.pos + bs.length⟩
  else .overrun b

def put (b : Buffer) : Write → Put
  | .byte x => b.putEach [x]
  | .varint v => b.putEach (Wire.varint v)
  | w => b.putWhole w.encoding

/-- Writes until one runs over the end. -/
def putAll (b : Buffer) : List Write → Put
  | [] => .done b
  | w :: ws =>
    match b.put w with
    | .done b => b.putAll ws
    | .overrun b => .overrun b

end Buffer

end SpanWire.Wire
