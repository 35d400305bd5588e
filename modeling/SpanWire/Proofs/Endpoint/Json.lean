import SpanWire.Endpoint.Json
import SpanWire.Proofs.Address
import SpanWire.Proofs.Endpoint
import SpanWire.Proofs.Json.Schema

/-! An endpoint that is written and read is made normal on the way. -/
namespace SpanWire

open Json

theorem IPv4.ofJson_text (a : IPv4) : IPv4.ofJson (Value.text (toString a)).draft = .ok a := by
  rw [IPv4.ofJson, readText_text]
  simp only [bind, Except.bind, IPv4.ofText?_toString]

theorem IPv6.ofJson_text (a : IPv6) : IPv6.ofJson (Value.text (toString a)).draft = .ok a := by
  rw [IPv6.ofJson, readText_text]
  simp only [bind, Except.bind, IPv6.ofText?_toString]

theorem optionalMember_eq {α : Type} (key : String) (write : α → Value) (o : Option α) :
    optionalMember key write o = ((o.map write).map fun v => (key, v)).toList := by
  cases o <;> rfl

namespace Endpoint

/-- What is written for the fields of an endpoint. -/
def written (e : Endpoint) : Field → Option Json.Value
  | .serviceName => e.serviceName.map .text
  | .ipv4 => e.ipv4.map fun a => .text (toString a)
  | .ipv6 => e.ipv6.map fun a => .text (toString a)
  | .port => e.port.map fun p => .number p.toNat

def record (e : Endpoint) : (f : Field) → f.Value
  | .serviceName => e.serviceName
  | .ipv4 => e.ipv4
  | .ipv6 => e.ipv6
  | .port => e.port

theorem toJson_eq (e : Endpoint) :
    e.toJson = .object (schema.fields.flatMap (schema.memberOf e.written)) := by
  change _ = Json.Value.object (Field.all.flatMap fun f : Field => schema.memberOf e.written f)
  simp only [toJson, optionalMember_eq, Field.all, List.flatMap_cons, List.flatMap_nil,
    List.append_nil, List.append_assoc]
  rfl

theorem describes (e : Endpoint) : @Schema.Describes schema e.written e.record where
  read f v h := by
    cases f with
    | serviceName => exact readOption_written nofun (readText_text .string) h
    | ipv4 => exact readOption_written nofun IPv4.ofJson_text h
    | ipv6 => exact readOption_written nofun IPv6.ofJson_text h
    | port => exact readOption_written nofun (readUInt16_number .port) h
  absent f h := by
    cases f <;> exact congrArg some (Option.map_eq_none_iff.1 h).symm

/-- Reading what is written for an endpoint makes it normal. -/
theorem ofJson_toJson (e : Endpoint) : ofJson e.toJson.draft = .ok e.normalize := by
  rw [ofJson, toJson_eq, Schema.readRecord_written (by decide) e.describes]
  exact congrArg Except.ok e.ofParts_eq

/-- Only normal endpoints are read. -/
theorem normal_of_ofJson {d : Draft} {e : Endpoint} (h : ofJson d = .ok e) : e.Normal := by
  rw [ofJson] at h
  cases hr : schema.readRecord d with
  | error problem =>
    rw [hr] at h
    contradiction
  | ok r =>
    rw [hr] at h
    obtain rfl := Except.ok.inj h
    let e : Endpoint := ⟨r Field.serviceName, r Field.ipv4, r Field.ipv6, r Field.port⟩
    have hparts : ofRecord r = e.normalize := e.ofParts_eq
    exact hparts ▸ e.normal_normalize

end Endpoint

end SpanWire
