import SpanWire.Json.Schema

/-! What can be chosen about the encoding. -/
namespace SpanWire.Wire

/-- A field counts as huge when it takes more bytes than the threshold. -/
structure Settings where
  largeFieldThreshold : UInt64 := 1048576
  deriving DecidableEq

namespace Settings

open Json

inductive Field
  | largeFieldThreshold
  deriving DecidableEq

def schema : Schema where
  name := "WriterConfig"
  Field := Field
  decEq := inferInstance
  fields := [.largeFieldThreshold]
  complete := fun f => by cases f; decide
  key := fun _ => "large_field_threshold"
  Value := fun _ => UInt64
  read := fun _ => readUInt64 .size
  absent := fun _ => some ({} : Settings).largeFieldThreshold
  closed := true

def ofJson : Reader Settings := fun d =>
  (schema.readRecord d).map fun r => ⟨r Field.largeFieldThreshold⟩

end Settings

end SpanWire.Wire
