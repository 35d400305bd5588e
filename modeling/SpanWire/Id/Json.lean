import SpanWire.Id
import SpanWire.Json.Reader
import SpanWire.Json.Value

/-! Identifiers in JSON: texts in normal form, read from any text that has one. -/
namespace SpanWire

open Json

def TraceId.toJson (id : TraceId) : Value :=
  .text (toString id)

def SpanId.toJson (id : SpanId) : Value :=
  .text (toString id)

private def orBadId {ι : Type} (r : Except IdError ι) : Except Problem ι :=
  r.mapError fun e => .data (.badId e false)

def TraceId.ofJson : Reader TraceId := fun d => do
  orBadId (TraceId.ofHex? (← readText .string d))

def SpanId.ofJson : Reader SpanId := fun d => do
  orBadId (SpanId.ofHex? (← readText .string d))

end SpanWire
