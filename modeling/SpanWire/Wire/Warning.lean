import SpanWire.Wire.Size

/-! Warnings about fields that take many bytes. -/
namespace SpanWire

namespace Wire

/-- The fields that may become huge. -/
inductive HugeField
  | name
  | localServiceName
  | remoteServiceName
  | event
  | tag
  deriving DecidableEq, Repr

def HugeField.describe : HugeField → String
  | name => "name"
  | localServiceName => "local service name"
  | remoteServiceName => "remote service name"
  | event => "annotation"
  | tag => "tag"

structure Warning where
  traceId : TraceId
  spanId : SpanId
  field : HugeField
  size : Nat
  deriving DecidableEq

def Warning.message (w : Warning) : String :=
  s!"Span {w.traceId}/{w.spanId} includes a huge {w.field.describe} " ++
    s!"that will take {w.size} bytes to encode"

end Wire

open Wire

/-- The fields of a span that may become huge, each with its size, in the order of encoding. -/
def Span.growingFields (s : Span) : List (HugeField × Nat) :=
  (match s.name with
    | none => []
    | some name => [(.name, textFieldSize name)]) ++
  [(.localServiceName, endpointFieldSize s.localEndpoint),
    (.remoteServiceName, endpointFieldSize s.remoteEndpoint)] ++
  s.annotations.map (fun a => (.event, a.fieldSize)) ++
  s.tags.entries.map (fun e => (.tag, tagFieldSize e.1 e.2))

/-- One warning for each field above the threshold. -/
def Span.warnings (s : Span) (threshold : UInt64) : List Warning :=
  (s.growingFields.filter (threshold.toNat < ·.2)).map fun f => ⟨s.traceId, s.id, f.1, f.2⟩

end SpanWire
