import SpanWire.Wire.Buffer
import SpanWire.Wire.Size

/-!
The binary encoding of spans: fields in ascending order of their numbers, each behind a key that
names the number and the form of what follows. A list of spans is a message of its own, with the
spans as its first field, repeated.
-/
namespace SpanWire

namespace Wire

/-- The form of a field's value. -/
inductive WireType
  | varint
  | fixed64
  | delimited
  deriving DecidableEq, Repr

def WireType.code : WireType → UInt8
  | varint => 0
  | fixed64 => 1
  | delimited => 2

def fieldKey (number : UInt8) (type : WireType) : UInt8 :=
  number <<< 3 ||| type.code

def textField (number : UInt8) (s : String) : List Write :=
  [.byte (fieldKey number .delimited), .varint (UInt64.ofNat s.utf8ByteSize), .utf8 s]

def bytesField (number : UInt8) (bs : List UInt8) : List Write :=
  [.byte (fieldKey number .delimited), .varint (UInt64.ofNat bs.length), .bytes bs]

/-- The bytes of an identifier are written one at a time, and their count in one byte. -/
def idField (number : UInt8) (digits : List Hex.Digit) : List Write :=
  [.byte (fieldKey number .delimited), .byte (UInt8.ofNat (digits.length / 2))] ++
    (Hex.toBytes digits).map .byte

def flagField (number : UInt8) (flag : Bool) : List Write :=
  if flag then [.byte (fieldKey number .varint), .byte 1] else []

end Wire

open Wire

def Endpoint.writes (e : Endpoint) : List Write :=
  (match e.serviceName with
    | none => []
    | some name => textField 1 name) ++
  (match e.ipv4 with
    | none => []
    | some a => bytesField 2 a.octets) ++
  (match e.ipv6 with
    | none => []
    | some a => bytesField 3 a.octets) ++
  (match e.port with
    | none => []
    | some port => [.byte (fieldKey 4 .varint), .varint port.toUInt64])

/-- An empty endpoint is not written, not even as an empty message. -/
def endpointField (number : UInt8) : Option Endpoint → List Write
  | none => []
  | some e =>
    if e.isEmpty then []
    else [.byte (fieldKey number .delimited), .varint (UInt64.ofNat e.size)] ++ e.writes

def Annotation.writes (a : Annotation) : List Write :=
  [.byte (fieldKey 1 .fixed64), .fixed64 a.timestamp] ++ textField 2 a.value

def annotationField (number : UInt8) (a : Annotation) : List Write :=
  [.byte (fieldKey number .delimited), .varint (UInt64.ofNat a.size)] ++ a.writes

def tagField (number : UInt8) (key value : String) : List Write :=
  [.byte (fieldKey number .delimited), .varint (UInt64.ofNat (tagSize key value))] ++
    textField 1 key ++ textField 2 value

namespace Span

/-- The writes that encode a span. -/
def writes (s : Span) : List Write :=
  idField 1 s.traceId.digits ++
  (match s.parentId with
    | none => []
    | some id => idField 2 id.digits) ++
  idField 3 s.id.digits ++
  (match s.kind with
    | none => []
    | some kind => [.byte (fieldKey 4 .varint), .byte kind.wireValue]) ++
  (match s.name with
    | none => []
    | some name => textField 5 name) ++
  (if s.timestamp = 0 then [] else [.byte (fieldKey 6 .fixed64), .fixed64 s.timestamp]) ++
  (if s.duration = 0 then [] else [.byte (fieldKey 7 .varint), .varint s.duration]) ++
  endpointField 8 s.localEndpoint ++
  endpointField 9 s.remoteEndpoint ++
  s.annotations.flatMap (annotationField 10) ++
  s.tags.entries.flatMap (fun e => tagField 11 e.1 e.2) ++
  flagField 12 s.debug ++
  flagField 13 s.shared

def write (s : Span) (b : Buffer) : Put :=
  b.putAll s.writes

/-- The encoding, written into a buffer of exactly its size. -/
def encode (s : Span) : Array UInt8 :=
  (s.write (.zeros s.size)).buffer.bytes

/-- A span as an entry of a list: key, size and encoding. -/
def writeFrame (s : Span) (size : Nat) (b : Buffer) : Put :=
  match b.putAll [.byte (fieldKey 1 .delimited), .varint (UInt64.ofNat size)] with
  | .done b => s.write b
  | .overrun b => .overrun b

end Span

/-- Spans with their sizes, one frame after the other. -/
def writeFrames (b : Buffer) : List (Span × Nat) → Put
  | [] => .done b
  | (s, size) :: rest =>
    match s.writeFrame size b with
    | .done b => writeFrames b rest
    | .overrun b => .overrun b

/-- The encoding of a list, written into a buffer that is sized from the spans' sizes. -/
def encodeList (spans : List Span) : Array UInt8 :=
  let sizes := spans.map Span.size
  (writeFrames (.zeros (total (sizes.map delimitedFieldSize))) (spans.zip sizes)).buffer.bytes

end SpanWire
