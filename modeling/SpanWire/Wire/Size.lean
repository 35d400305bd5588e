import SpanWire.Span
import SpanWire.Wire.Varint

/-! Encoded sizes, computed without encoding. Every key takes one byte. -/
namespace SpanWire

open Wire (varintSize)

namespace Wire

def total (sizes : List Nat) : Nat :=
  sizes.foldr (· + ·) 0

/-- The size of a field that holds as many bytes: key, length and bytes. -/
def delimitedFieldSize (size : Nat) : Nat :=
  1 + varintSize (UInt64.ofNat size) + size

def textFieldSize (s : String) : Nat :=
  delimitedFieldSize s.utf8ByteSize

end Wire

open Wire

def Endpoint.size (e : Endpoint) : Nat :=
  (match e.serviceName with
    | none => 0
    | some name => textFieldSize name) +
  (if e.ipv4.isSome then 6 else 0) +
  (if e.ipv6.isSome then 18 else 0) +
  (match e.port with
    | none => 0
    | some port => 1 + varintSize port.toUInt64)

/-- An empty endpoint takes no field. -/
def endpointFieldSize : Option Endpoint → Nat
  | none => 0
  | some e => if e.isEmpty then 0 else delimitedFieldSize e.size

def Annotation.size (a : Annotation) : Nat :=
  9 + textFieldSize a.value

def Annotation.fieldSize (a : Annotation) : Nat :=
  delimitedFieldSize a.size

/-- A tag is a message of its own, with the key and the value as its fields. -/
def tagSize (key value : String) : Nat :=
  textFieldSize key + textFieldSize value

def tagFieldSize (key value : String) : Nat :=
  delimitedFieldSize (tagSize key value)

/-- The exact size of a span's encoding. -/
def Span.size (s : Span) : Nat :=
  (2 + s.traceId.byteLength) +
  (if s.parentId.isSome then 10 else 0) +
  10 +
  (if s.kind.isSome then 2 else 0) +
  (match s.name with
    | none => 0
    | some name => textFieldSize name) +
  (if s.timestamp = 0 then 0 else 9) +
  (if s.duration = 0 then 0 else 1 + varintSize s.duration) +
  endpointFieldSize s.localEndpoint +
  endpointFieldSize s.remoteEndpoint +
  total (s.annotations.map Annotation.fieldSize) +
  total (s.tags.entries.map fun e => tagFieldSize e.1 e.2) +
  (if s.debug then 2 else 0) +
  (if s.shared then 2 else 0)

end SpanWire
