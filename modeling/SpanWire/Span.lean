import SpanWire.Endpoint
import SpanWire.Id
import SpanWire.Kind
import SpanWire.Tags

/-! Spans: one operation in a trace each. Times are in microseconds, and zero means not recorded. -/
namespace SpanWire

/-- An event within a span. -/
structure Annotation where
  timestamp : UInt64
  value : String
  deriving DecidableEq

structure Span where
  traceId : TraceId
  parentId : Option SpanId := none
  id : SpanId
  kind : Option Kind := none
  name : Option String := none
  timestamp : UInt64 := 0
  duration : UInt64 := 0
  localEndpoint : Option Endpoint := none
  remoteEndpoint : Option Endpoint := none
  annotations : List Annotation := []
  tags : Tags := .empty
  debug : Bool := false
  shared : Bool := false
  deriving DecidableEq

namespace Span

/-- A span of which only the identifiers are known. -/
def new (traceId : TraceId) (id : SpanId) : Span :=
  { traceId, id }

def withParentId (s : Span) (id : SpanId) : Span :=
  { s with parentId := some id }

def withKind (s : Span) (kind : Kind) : Span :=
  { s with kind := some kind }

def withName (s : Span) (name : String) : Span :=
  { s with name := some name }

def withTimestamp (s : Span) (timestamp : UInt64) : Span :=
  { s with timestamp }

def withDuration (s : Span) (duration : UInt64) : Span :=
  { s with duration }

def withLocalEndpoint (s : Span) (e : Endpoint) : Span :=
  { s with localEndpoint := some e }

def withRemoteEndpoint (s : Span) (e : Endpoint) : Span :=
  { s with remoteEndpoint := some e }

def withAnnotation (s : Span) (timestamp : UInt64) (value : String) : Span :=
  { s with annotations := s.annotations ++ [⟨timestamp, value⟩] }

def withTag (s : Span) (key value : String) : Span :=
  { s with tags := s.tags.insert key value }

def withDebug (s : Span) (debug : Bool) : Span :=
  { s with debug }

def withShared (s : Span) (shared : Bool) : Span :=
  { s with shared }

/-- The steps a span is put together by. -/
inductive Step
  | parentId (id : SpanId)
  | kind (kind : Kind)
  | name (name : String)
  | timestamp (timestamp : UInt64)
  | duration (duration : UInt64)
  | localEndpoint (e : Endpoint)
  | remoteEndpoint (e : Endpoint)
  | annotate (timestamp : UInt64) (value : String)
  | tag (key value : String)
  | debug (debug : Bool)
  | shared (shared : Bool)
  deriving DecidableEq

def apply (s : Span) : Step → Span
  | .parentId id => s.withParentId id
  | .kind kind => s.withKind kind
  | .name name => s.withName name
  | .timestamp timestamp => s.withTimestamp timestamp
  | .duration duration => s.withDuration duration
  | .localEndpoint e => s.withLocalEndpoint e
  | .remoteEndpoint e => s.withRemoteEndpoint e
  | .annotate timestamp value => s.withAnnotation timestamp value
  | .tag key value => s.withTag key value
  | .debug debug => s.withDebug debug
  | .shared shared => s.withShared shared

def localServiceName (s : Span) : Option String :=
  s.localEndpoint.bind (·.serviceName)

def remoteServiceName (s : Span) : Option String :=
  s.remoteEndpoint.bind (·.serviceName)

end Span

end SpanWire
