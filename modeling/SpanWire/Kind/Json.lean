import SpanWire.Json.Reader
import SpanWire.Json.Value
import SpanWire.Kind

/-! Kinds in JSON: their names, or objects with a name as the one key and nothing under it. -/
namespace SpanWire.Kind

open Json

def toJson (k : Kind) : Value :=
  .text k.name

def ofVariant (name : String) : Except Problem Kind :=
  match ofName? name with
  | some k => .ok k
  | none => .error (.data (.unknownVariant name (all.map Kind.name)))

/-- A value that is neither a text nor an object is not looked into. A key that is no text breaks
the grammar of objects, whatever else it is, so that it is never asked for its type. -/
def ofJson : Reader Kind
  | .leaf none => .error (.grammar .ended)
  | .leaf (some (.text q)) => do
    ofVariant (← orGrammar q.value)
  | .object ((key, d) :: others) cut => do
    let kind ← ofVariant (← readKey key)
    readUnit d
    if !others.isEmpty then .error (.grammar .malformed)
    else do
      failOn cut
      return kind
  | _ => .error (.grammar .malformed)

example : readDocument ofJson "\x7b5:null\x7d" = .error (.grammar .malformed) := by
  cbv

end SpanWire.Kind
