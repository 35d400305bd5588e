import SpanWire.Address.Text

/-!
The network context of a node. Endpoints that are put together step by step are normal: port zero
means that no port is known, and an IPv6 address that stands for an IPv4 address is kept as that.
-/
namespace SpanWire

structure Endpoint where
  serviceName : Option String := none
  ipv4 : Option IPv4 := none
  ipv6 : Option IPv6 := none
  port : Option UInt16 := none
  deriving DecidableEq

/-- The text that was to be an address. -/
structure AddressError where
  text : String
  deriving DecidableEq, Repr

def AddressError.message (e : AddressError) : String :=
  s!"invalid ip address: {e.text}"

namespace Endpoint

/-- Nothing is known of the node. -/
def empty : Endpoint := {}

/-- An empty endpoint says nothing and is not encoded. -/
def isEmpty (e : Endpoint) : Bool :=
  e.serviceName.isNone && e.ipv4.isNone && e.ipv6.isNone && e.port.isNone

def withServiceName (e : Endpoint) (name : String) : Endpoint :=
  { e with serviceName := some name }

def withIPv4 (e : Endpoint) (a : IPv4) : Endpoint :=
  { e with ipv4 := some a }

def withIPv6 (e : Endpoint) (a : IPv6) : Endpoint :=
  match a.mapped? with
  | some v4 => e.withIPv4 v4
  | none => { e with ipv6 := some a }

def withAddress (e : Endpoint) : Address → Endpoint
  | .v4 a => e.withIPv4 a
  | .v6 a => e.withIPv6 a

def withAddressText (e : Endpoint) (text : String) : Except AddressError Endpoint :=
  match Address.ofText? text with
  | some a => .ok (e.withAddress a)
  | none => .error ⟨text⟩

/-- Port zero clears the port. -/
def withPort (e : Endpoint) (port : UInt16) : Endpoint :=
  { e with port := if port = 0 then none else some port }

/-- The steps an endpoint is put together by. -/
inductive Step
  | serviceName (name : String)
  | ip (text : String)
  | ipv4 (a : IPv4)
  | ipv6 (a : IPv6)
  | port (port : UInt16)
  deriving DecidableEq

def apply (e : Endpoint) : Step → Except AddressError Endpoint
  | .serviceName name => .ok (e.withServiceName name)
  | .ip text => e.withAddressText text
  | .ipv4 a => .ok (e.withIPv4 a)
  | .ipv6 a => .ok (e.withIPv6 a)
  | .port port => .ok (e.withPort port)

/-- Puts together the parts that are given, in the order of the fields. A later IPv6 address may
take the place of the IPv4 address. -/
def ofParts (serviceName : Option String) (ipv4 : Option IPv4) (ipv6 : Option IPv6)
    (port : Option UInt16) : Endpoint :=
  let e := serviceName.elim empty empty.withServiceName
  let e := ipv4.elim e e.withIPv4
  let e := ipv6.elim e e.withIPv6
  port.elim e e.withPort

end Endpoint

end SpanWire
