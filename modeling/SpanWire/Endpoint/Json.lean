import SpanWire.Endpoint
import SpanWire.Json.Schema
import SpanWire.Json.Value

/-! Endpoints in JSON. Parts that are absent are left out, and what is read is put together anew. -/
namespace SpanWire

open Json

def IPv4.ofJson : Reader IPv4 := fun d => do
  match IPv4.ofText? (← readText (.address .v4) d) with
  | some a => .ok a
  | none => .error (.data (.badAddress .v4))

def IPv6.ofJson : Reader IPv6 := fun d => do
  match IPv6.ofText? (← readText (.address .v6) d) with
  | some a => .ok a
  | none => .error (.data (.badAddress .v6))

/-- The member of an optional part. -/
def optionalMember {α : Type} (key : String) (toJson : α → Value) :
    Option α → List (String × Value)
  | none => []
  | some a => [(key, toJson a)]

namespace Endpoint

def toJson (e : Endpoint) : Value :=
  .object <|
    optionalMember "serviceName" .text e.serviceName ++
    optionalMember "ipv4" (fun a => .text (toString a)) e.ipv4 ++
    optionalMember "ipv6" (fun a => .text (toString a)) e.ipv6 ++
    optionalMember "port" (fun p => .number p.toNat) e.port

inductive Field
  | serviceName
  | ipv4
  | ipv6
  | port
  deriving DecidableEq

namespace Field

def all : List Field := [serviceName, ipv4, ipv6, port]

def key : Field → String
  | serviceName => "serviceName"
  | ipv4 => "ipv4"
  | ipv6 => "ipv6"
  | port => "port"

abbrev Value : Field → Type
  | serviceName => Option String
  | ipv4 => Option IPv4
  | ipv6 => Option IPv6
  | port => Option UInt16

def read : (f : Field) → Reader f.Value
  | serviceName => readOption (readText .string)
  | ipv4 => readOption IPv4.ofJson
  | ipv6 => readOption IPv6.ofJson
  | port => readOption (readUInt16 .port)

def absent : (f : Field) → Option f.Value
  | serviceName => some none
  | ipv4 => some none
  | ipv6 => some none
  | port => some none

end Field

def schema : Schema where
  name := "EndpointJson"
  Field := Field
  decEq := inferInstance
  fields := Field.all
  complete := fun f => by cases f <;> decide
  key := Field.key
  Value := Field.Value
  read := Field.read
  absent := Field.absent
  closed := false

def ofRecord (r : schema.Record) : Endpoint :=
  ofParts (r Field.serviceName) (r Field.ipv4) (r Field.ipv6) (r Field.port)

def ofJson : Reader Endpoint := fun d =>
  (schema.readRecord d).map ofRecord

end Endpoint

end SpanWire
