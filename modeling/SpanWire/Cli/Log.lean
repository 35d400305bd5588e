/-! What is logged. -/
namespace SpanWire.Cli.Log

inductive Level
  | error
  | warn
  | info
  | debug
  | trace
  deriving DecidableEq, Repr

namespace Level

def rank : Level → Nat
  | error => 1
  | warn => 2
  | info => 3
  | debug => 4
  | trace => 5

def name : Level → String
  | error => "ERROR"
  | warn => "WARN"
  | info => "INFO"
  | debug => "DEBUG"
  | trace => "TRACE"

end Level

structure Record where
  level : Level
  target : String
  text : String
  deriving DecidableEq, Repr

def Record.line (r : Record) : String :=
  s!"{r.level.name} {r.target}: {r.text}\n"

end SpanWire.Cli.Log
