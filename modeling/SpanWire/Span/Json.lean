import SpanWire.Endpoint.Json
import SpanWire.Id.Json
import SpanWire.Kind.Json
import SpanWire.Span

/-!
Spans and annotations in JSON. Whatever is absent, zero, empty or false is left out of a span.
-/
namespace SpanWire

open Json

namespace Annotation

def toJson (a : Annotation) : Value :=
  .object [("timestamp", .number a.timestamp.toNat), ("value", .text a.value)]

inductive Field
  | timestamp
  | value
  deriving DecidableEq

namespace Field

def all : List Field := [timestamp, value]

def key : Field → String
  | timestamp => "timestamp"
  | value => "value"

abbrev Value : Field → Type
  | timestamp => UInt64
  | value => String

def read : (f : Field) → Reader f.Value
  | timestamp => readUInt64 .number
  | value => readText .string

end Field

def schema : Schema where
  name := "Annotation"
  Field := Field
  decEq := inferInstance
  fields := Field.all
  complete := fun f => by cases f <;> decide
  key := Field.key
  Value := Field.Value
  read := Field.read
  absent := fun _ => none
  closed := false

def ofRecord (r : schema.Record) : Annotation :=
  ⟨r Field.timestamp, r Field.value⟩

def ofJson : Reader Annotation := fun d =>
  (schema.readRecord d).map ofRecord

end Annotation

namespace Tags

def toJson (t : Tags) : Value :=
  .object (t.entries.map fun e => (e.1, .text e.2))

def ofJson : Reader Tags := fun d =>
  (readEntries (readText .string) d).map ofList

end Tags

namespace Span

/-- A member that is written only if a condition holds. -/
def memberIf (given : Bool) (key : String) (v : Value) : List (String × Value) :=
  if given then [(key, v)] else []

def toJson (s : Span) : Value :=
  .object <|
    [("traceId", s.traceId.toJson)] ++
    optionalMember "parentId" SpanId.toJson s.parentId ++
    [("id", s.id.toJson)] ++
    optionalMember "kind" Kind.toJson s.kind ++
    optionalMember "name" .text s.name ++
    memberIf (s.timestamp != 0) "timestamp" (.number s.timestamp.toNat) ++
    memberIf (s.duration != 0) "duration" (.number s.duration.toNat) ++
    optionalMember "localEndpoint" Endpoint.toJson s.localEndpoint ++
    optionalMember "remoteEndpoint" Endpoint.toJson s.remoteEndpoint ++
    memberIf (!s.annotations.isEmpty) "annotations"
      (.array (s.annotations.map Annotation.toJson)) ++
    memberIf (!s.tags.isEmpty) "tags" s.tags.toJson ++
    memberIf s.debug "debug" (.bool true) ++
    memberIf s.shared "shared" (.bool true)

inductive Field
  | traceId
  | parentId
  | id
  | kind
  | name
  | timestamp
  | duration
  | localEndpoint
  | remoteEndpoint
  | annotations
  | tags
  | debug
  | shared
  deriving DecidableEq

namespace Field

def all : List Field :=
  [traceId, parentId, id, kind, name, timestamp, duration, localEndpoint, remoteEndpoint,
    annotations, tags, debug, shared]

def key : Field → String
  | traceId => "traceId"
  | parentId => "parentId"
  | id => "id"
  | kind => "kind"
  | name => "name"
  | timestamp => "timestamp"
  | duration => "duration"
  | localEndpoint => "localEndpoint"
  | remoteEndpoint => "remoteEndpoint"
  | annotations => "annotations"
  | tags => "tags"
  | debug => "debug"
  | shared => "shared"

abbrev Value : Field → Type
  | traceId => TraceId
  | parentId => Option SpanId
  | id => SpanId
  | kind => Option Kind
  | name => Option String
  | timestamp => UInt64
  | duration => UInt64
  | localEndpoint => Option Endpoint
  | remoteEndpoint => Option Endpoint
  | annotations => List Annotation
  | tags => Tags
  | debug => Bool
  | shared => Bool

def read : (f : Field) → Reader f.Value
  | traceId => TraceId.ofJson
  | parentId => readOption SpanId.ofJson
  | id => SpanId.ofJson
  | kind => readOption Kind.ofJson
  | name => readOption (readText .string)
  | timestamp => readUInt64 .number
  | duration => readUInt64 .number
  | localEndpoint => readOption Endpoint.ofJson
  | remoteEndpoint => readOption Endpoint.ofJson
  | annotations => readList Annotation.ofJson
  | tags => Tags.ofJson
  | debug => readBool
  | shared => readBool

/-- Only the two identifiers of the span itself are required. -/
def absent : (f : Field) → Option f.Value
  | traceId => none
  | parentId => some none
  | id => none
  | kind => some none
  | name => some none
  | timestamp => some (0 : UInt64)
  | duration => some (0 : UInt64)
  | localEndpoint => some none
  | remoteEndpoint => some none
  | annotations => some ([] : List Annotation)
  | tags => some Tags.empty
  | debug => some false
  | shared => some false

end Field

def schema : Schema where
  name := "Span"
  Field := Field
  decEq := inferInstance
  fields := Field.all
  complete := fun f => by cases f <;> decide
  key := Field.key
  Value := Field.Value
  read := Field.read
  absent := Field.absent
  closed := false

def ofRecord (r : schema.Record) : Span where
  traceId := r Field.traceId
  parentId := r Field.parentId
  id := r Field.id
  kind := r Field.kind
  name := r Field.name
  timestamp := r Field.timestamp
  duration := r Field.duration
  localEndpoint := r Field.localEndpoint
  remoteEndpoint := r Field.remoteEndpoint
  annotations := r Field.annotations
  tags := r Field.tags
  debug := r Field.debug
  shared := r Field.shared

def ofJson : Reader Span := fun d =>
  (schema.readRecord d).map ofRecord

def render (s : Span) : String :=
  s.toJson.render

/-- Reads a text that holds one span. -/
def ofText (text : String) : Except Problem Span :=
  readDocument ofJson text

end Span

end SpanWire
