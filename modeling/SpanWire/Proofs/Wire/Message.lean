import SpanWire.Proofs.Wire.Field
import SpanWire.Span
import SpanWire.Text.Utf8

/-!
The messages of the schema as values, and a decoder for them that is written from the schema and
the wire format. An absent field has its default, of several the last counts, and whatever the
schema does not name is refused.
-/
namespace SpanWire

namespace Wire

structure EndpointMessage where
  serviceName : String := ""
  ipv4 : List UInt8 := []
  ipv6 : List UInt8 := []
  port : Int32 := 0
  deriving DecidableEq

structure AnnotationMessage where
  timestamp : UInt64 := 0
  value : String := ""
  deriving DecidableEq

/-- An entry of a map. -/
structure TagMessage where
  key : String := ""
  value : String := ""
  deriving DecidableEq

structure SpanMessage where
  traceId : List UInt8 := []
  parentId : List UInt8 := []
  id : List UInt8 := []
  kind : Int32 := 0
  name : String := ""
  timestamp : UInt64 := 0
  duration : UInt64 := 0
  localEndpoint : Option EndpointMessage := none
  remoteEndpoint : Option EndpointMessage := none
  annotations : List AnnotationMessage := []
  tags : Tags := .empty
  debug : Bool := false
  shared : Bool := false
  deriving DecidableEq

/-- Reads a message field by field, and all of its bytes. -/
def readMessage {α : Type} (step : α → WireField → Option α) (start : α) (bs : List UInt8) :
    Option α := do
  (← readFields bs).foldlM step start

/-- Of a number written in 64 bits a field of 32 bits keeps the low half. -/
def toInt32 (v : UInt64) : Int32 :=
  v.toUInt32.toInt32

def EndpointMessage.step (m : EndpointMessage) : WireField → Option EndpointMessage
  | ⟨1, .delimited bs⟩ => (Text.ofUtf8? bs).map fun serviceName => { m with serviceName }
  | ⟨2, .delimited ipv4⟩ => some { m with ipv4 }
  | ⟨3, .delimited ipv6⟩ => some { m with ipv6 }
  | ⟨4, .varint v⟩ => some { m with port := toInt32 v }
  | _ => none

def AnnotationMessage.step (m : AnnotationMessage) : WireField → Option AnnotationMessage
  | ⟨1, .fixed64 timestamp⟩ => some { m with timestamp }
  | ⟨2, .delimited bs⟩ => (Text.ofUtf8? bs).map fun value => { m with value }
  | _ => none

def TagMessage.step (m : TagMessage) : WireField → Option TagMessage
  | ⟨1, .delimited bs⟩ => (Text.ofUtf8? bs).map fun key => { m with key }
  | ⟨2, .delimited bs⟩ => (Text.ofUtf8? bs).map fun value => { m with value }
  | _ => none

def EndpointMessage.ofBytes? : List UInt8 → Option EndpointMessage :=
  readMessage step {}

def AnnotationMessage.ofBytes? : List UInt8 → Option AnnotationMessage :=
  readMessage step {}

def TagMessage.ofBytes? : List UInt8 → Option TagMessage :=
  readMessage step {}

def SpanMessage.step (m : SpanMessage) : WireField → Option SpanMessage
  | ⟨1, .delimited traceId⟩ => some { m with traceId }
  | ⟨2, .delimited parentId⟩ => some { m with parentId }
  | ⟨3, .delimited id⟩ => some { m with id }
  | ⟨4, .varint v⟩ => some { m with kind := toInt32 v }
  | ⟨5, .delimited bs⟩ => (Text.ofUtf8? bs).map fun name => { m with name }
  | ⟨6, .fixed64 timestamp⟩ => some { m with timestamp }
  | ⟨7, .varint duration⟩ => some { m with duration }
  | ⟨8, .delimited bs⟩ =>
    (EndpointMessage.ofBytes? bs).map fun e => { m with localEndpoint := some e }
  | ⟨9, .delimited bs⟩ =>
    (EndpointMessage.ofBytes? bs).map fun e => { m with remoteEndpoint := some e }
  | ⟨10, .delimited bs⟩ =>
    (AnnotationMessage.ofBytes? bs).map fun a => { m with annotations := m.annotations ++ [a] }
  | ⟨11, .delimited bs⟩ =>
    (TagMessage.ofBytes? bs).map fun e => { m with tags := m.tags.insert e.key e.value }
  | ⟨12, .varint v⟩ => some { m with debug := v != 0 }
  | ⟨13, .varint v⟩ => some { m with shared := v != 0 }
  | _ => none

def SpanMessage.ofBytes? : List UInt8 → Option SpanMessage :=
  readMessage step {}

/-- A list of spans has these as its only field. -/
def spansStep (spans : List SpanMessage) : WireField → Option (List SpanMessage)
  | ⟨1, .delimited bs⟩ => (SpanMessage.ofBytes? bs).map fun s => spans ++ [s]
  | _ => none

def spansOfBytes? : List UInt8 → Option (List SpanMessage) :=
  readMessage spansStep []

end Wire

open Wire

/-- The message of an endpoint. Parts that are absent have their default there. -/
def Endpoint.message (e : Endpoint) : EndpointMessage where
  serviceName := e.serviceName.getD ""
  ipv4 := e.ipv4.elim [] IPv4.octets
  ipv6 := e.ipv6.elim [] IPv6.octets
  port := e.port.elim 0 fun port => Int32.ofNat port.toNat

def Annotation.message (a : Annotation) : AnnotationMessage :=
  ⟨a.timestamp, a.value⟩

/-- The message of a span. An empty endpoint counts as absent. -/
def Span.message (s : Span) : SpanMessage where
  traceId := s.traceId.toBytes
  parentId := s.parentId.elim [] SpanId.toBytes
  id := s.id.toBytes
  kind := s.kind.elim 0 fun kind => Int32.ofNat kind.wireValue.toNat
  name := s.name.getD ""
  timestamp := s.timestamp
  duration := s.duration
  localEndpoint := (s.localEndpoint.filter (!·.isEmpty)).map Endpoint.message
  remoteEndpoint := (s.remoteEndpoint.filter (!·.isEmpty)).map Endpoint.message
  annotations := s.annotations.map Annotation.message
  tags := s.tags
  debug := s.debug
  shared := s.shared

end SpanWire
