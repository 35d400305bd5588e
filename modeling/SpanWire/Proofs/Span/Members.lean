import SpanWire.Proofs.Json.Members
import SpanWire.Proofs.Span.Sound

/-! Spans, endpoints and annotations read from objects, whatever the order of their members. -/
namespace SpanWire

open Json

theorem Endpoint.readsWhole : ReadsWhole ofJson :=
  (readsWhole_record schema).map ofRecord

/-- No field of a span is read from a value that is torn or cut off. -/
theorem Span.Field.readsWhole (f : Field) : ReadsWhole f.read := by
  cases f with
  | localEndpoint => exact Endpoint.readsWhole.option
  | remoteEndpoint => exact Endpoint.readsWhole.option
  | annotations => exact readsWhole_list Annotation.ofJson
  | _ => exact (readsSound _).readsWhole

end SpanWire
