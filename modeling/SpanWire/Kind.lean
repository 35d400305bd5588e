/-! The role of the local endpoint of a span. -/
namespace SpanWire

inductive Kind
  | client
  | server
  | producer
  | consumer
  deriving DecidableEq, Repr

namespace Kind

/-- Zero is left to "unspecified". -/
def wireValue : Kind → UInt8
  | client => 1
  | server => 2
  | producer => 3
  | consumer => 4

def name : Kind → String
  | client => "CLIENT"
  | server => "SERVER"
  | producer => "PRODUCER"
  | consumer => "CONSUMER"

def all : List Kind := [client, server, producer, consumer]

def ofName? (s : String) : Option Kind :=
  all.find? (·.name = s)

end Kind

end SpanWire
