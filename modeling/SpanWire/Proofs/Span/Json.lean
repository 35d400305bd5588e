import SpanWire.Proofs.Endpoint.Json
import SpanWire.Proofs.Id
import SpanWire.Proofs.Tags
import SpanWire.Proofs.Wire.Size
import SpanWire.Span.Json

/-!
Spans survive being written as JSON and read again, but for their endpoints, which are normal
afterwards.
-/
namespace SpanWire

open Json

theorem TraceId.ofJson_toJson (id : TraceId) : TraceId.ofJson id.toJson.draft = .ok id := by
  rw [TraceId.ofJson, TraceId.toJson, readText_text]
  change (TraceId.ofHex? (toString id)).mapError _ = _
  rw [TraceId.ofHex?_toString]
  rfl

theorem SpanId.ofJson_toJson (id : SpanId) : SpanId.ofJson id.toJson.draft = .ok id := by
  rw [SpanId.ofJson, SpanId.toJson, readText_text]
  change (SpanId.ofHex? (toString id)).mapError _ = _
  rw [SpanId.ofHex?_toString]
  rfl

theorem Kind.ofJson_toJson (kind : Kind) : Kind.ofJson kind.toJson.draft = .ok kind := by
  rw [Kind.toJson, Value.draft, Kind.ofJson, Quotation.value_ofText]
  cases kind <;> rfl

theorem Tags.ofJson_toJson (t : Tags) : Tags.ofJson t.toJson.draft = .ok t := by
  rw [Tags.ofJson, Tags.toJson, readEntries_object (readText_text .string)]
  exact congrArg Except.ok t.ofList_entries

namespace Annotation

def written (a : Annotation) : Field → Option Json.Value
  | .timestamp => some (.number a.timestamp.toNat)
  | .value => some (.text a.value)

def record (a : Annotation) : (f : Field) → f.Value
  | .timestamp => a.timestamp
  | .value => a.value

theorem describes (a : Annotation) : @Schema.Describes schema a.written a.record where
  read f v h := by
    cases f with
    | timestamp =>
      obtain rfl := Option.some.inj h
      exact readUInt64_number .number a.timestamp
    | value =>
      obtain rfl := Option.some.inj h
      exact readText_text .string a.value
  absent f h := by cases f <;> contradiction

theorem ofJson_toJson (a : Annotation) : ofJson a.toJson.draft = .ok a := by
  have hread := Schema.readRecord_written (by decide) a.describes
  change schema.readRecord a.toJson.draft = _ at hread
  rw [ofJson, hread]
  rfl

end Annotation

namespace Span

/-- Both endpoints are normal, as far as they are there. -/
structure Normal (s : Span) : Prop where
  localEndpoint : ∀ e ∈ s.localEndpoint, e.Normal
  remoteEndpoint : ∀ e ∈ s.remoteEndpoint, e.Normal

def normalize (s : Span) : Span :=
  { s with
    localEndpoint := s.localEndpoint.map Endpoint.normalize
    remoteEndpoint := s.remoteEndpoint.map Endpoint.normalize }

private theorem map_normalize_eq_iff {o : Option Endpoint} :
    o.map Endpoint.normalize = o ↔ ∀ e ∈ o, e.Normal := by
  cases o with
  | none => exact iff_of_true rfl nofun
  | some e =>
    rw [Option.map_some, Option.some.injEq, Endpoint.normalize_eq_iff]
    exact ⟨fun h _ he => Option.some.inj he ▸ h, fun h => h e rfl⟩

theorem normalize_eq_iff {s : Span} : s.normalize = s ↔ s.Normal := by
  constructor
  · intro h
    exact ⟨map_normalize_eq_iff.1 (congrArg localEndpoint h),
      map_normalize_eq_iff.1 (congrArg remoteEndpoint h)⟩
  · intro h
    rw [normalize, map_normalize_eq_iff.2 h.localEndpoint,
      map_normalize_eq_iff.2 h.remoteEndpoint]

theorem normal_sample : sample.Normal :=
  normalize_eq_iff.1 (by decide)

/-- What is written for the fields of a span. -/
def written (s : Span) : Field → Option Json.Value
  | .traceId => some s.traceId.toJson
  | .parentId => s.parentId.map SpanId.toJson
  | .id => some s.id.toJson
  | .kind => s.kind.map Kind.toJson
  | .name => s.name.map .text
  | .timestamp => if s.timestamp != 0 then some (.number s.timestamp.toNat) else none
  | .duration => if s.duration != 0 then some (.number s.duration.toNat) else none
  | .localEndpoint => s.localEndpoint.map Endpoint.toJson
  | .remoteEndpoint => s.remoteEndpoint.map Endpoint.toJson
  | .annotations =>
    if !s.annotations.isEmpty then some (.array (s.annotations.map Annotation.toJson)) else none
  | .tags => if !s.tags.isEmpty then some s.tags.toJson else none
  | .debug => if s.debug then some (.bool true) else none
  | .shared => if s.shared then some (.bool true) else none

def record (s : Span) : (f : Field) → f.Value
  | .traceId => s.traceId
  | .parentId => s.parentId
  | .id => s.id
  | .kind => s.kind
  | .name => s.name
  | .timestamp => s.timestamp
  | .duration => s.duration
  | .localEndpoint => s.localEndpoint
  | .remoteEndpoint => s.remoteEndpoint
  | .annotations => s.annotations
  | .tags => s.tags
  | .debug => s.debug
  | .shared => s.shared

theorem memberIf_eq (given : Bool) (key : String) (v : Json.Value) :
    memberIf given key v = ((if given then some v else none).map fun v => (key, v)).toList := by
  cases given <;> rfl

theorem toJson_eq (s : Span) :
    s.toJson = .object (schema.fields.flatMap (schema.memberOf s.written)) := by
  change _ = Json.Value.object (Field.all.flatMap fun f : Field => schema.memberOf s.written f)
  simp only [toJson, optionalMember_eq, memberIf_eq, Field.all, List.flatMap_cons,
    List.flatMap_nil, List.append_nil, List.append_assoc]
  rfl

theorem read_given {α : Type} {read : Reader α} {given : Bool} {v w : Json.Value} {a : α}
    (ha : read w.draft = .ok a) (h : (if given then some w else none) = some v) :
    read v.draft = .ok a := by
  split at h
  · exact Option.some.inj h ▸ ha
  · contradiction

theorem not_given {given : Bool} {w : Json.Value}
    (h : (if given then some w else none) = none) : given = false := by
  split at h
  · contradiction
  · next hgiven => exact Bool.eq_false_iff.2 hgiven

private theorem read_flag {flag : Bool} {v : Json.Value}
    (h : (if flag then some (.bool true) else none) = some v) : readBool v.draft = .ok flag := by
  cases flag with
  | false => contradiction
  | true => exact Option.some.inj h ▸ readBool_true

theorem describes (s : Span) : @Schema.Describes schema s.written s.normalize.record where
  read f v h := by
    cases f with
    | traceId =>
      obtain rfl := Option.some.inj h
      exact s.traceId.ofJson_toJson
    | parentId => exact readOption_written nofun SpanId.ofJson_toJson h
    | id =>
      obtain rfl := Option.some.inj h
      exact s.id.ofJson_toJson
    | kind => exact readOption_written nofun Kind.ofJson_toJson h
    | name => exact readOption_written nofun (readText_text .string) h
    | timestamp => exact read_given (readUInt64_number .number s.timestamp) h
    | duration => exact read_given (readUInt64_number .number s.duration) h
    | localEndpoint => exact readOption_map nofun Endpoint.ofJson_toJson h
    | remoteEndpoint => exact readOption_map nofun Endpoint.ofJson_toJson h
    | annotations =>
      change readList Annotation.ofJson v.draft = .ok s.annotations
      exact read_given (readList_array Annotation.ofJson_toJson s.annotations) h
    | tags => exact read_given s.tags.ofJson_toJson h
    | debug => exact read_flag h
    | shared => exact read_flag h
  absent f h := by
    cases f with
    | traceId => contradiction
    | id => contradiction
    | parentId => exact congrArg some (Option.map_eq_none_iff.1 h).symm
    | kind => exact congrArg some (Option.map_eq_none_iff.1 h).symm
    | name => exact congrArg some (Option.map_eq_none_iff.1 h).symm
    | timestamp => exact congrArg some (bne_eq_false_iff_eq.1 (not_given h)).symm
    | duration => exact congrArg some (bne_eq_false_iff_eq.1 (not_given h)).symm
    | localEndpoint =>
      have hnone : s.localEndpoint = none := Option.map_eq_none_iff.1 h
      exact congrArg (fun o => some (o.map Endpoint.normalize)) hnone.symm
    | remoteEndpoint =>
      have hnone : s.remoteEndpoint = none := Option.map_eq_none_iff.1 h
      exact congrArg (fun o => some (o.map Endpoint.normalize)) hnone.symm
    | annotations =>
      have hempty : s.annotations.isEmpty = true := by simpa using not_given h
      exact congrArg some (List.isEmpty_iff.1 hempty).symm
    | tags =>
      have hempty : s.tags.isEmpty = true := by simpa using not_given h
      have htags : s.tags = .empty := Tags.ext (List.isEmpty_iff.1 hempty)
      exact congrArg some htags.symm
    | debug => exact congrArg some (not_given h).symm
    | shared => exact congrArg some (not_given h).symm

theorem ofJson_toJson (s : Span) : ofJson s.toJson.draft = .ok s.normalize := by
  rw [ofJson, toJson_eq, Schema.readRecord_written (by decide) s.describes]
  rfl

theorem ofText_render (s : Span) : ofText s.render = .ok s.normalize := by
  rw [ofText, render, readDocument, Document.ofText_render]
  change (ofJson s.toJson.draft >>= fun a => if false = true then _ else .ok a) = _
  rw [ofJson_toJson]
  rfl

/-- Whatever is read has normal endpoints. -/
theorem normal_of_ofJson {d : Draft} {s : Span} (h : ofJson d = .ok s) : s.Normal := by
  rw [ofJson] at h
  cases hr : schema.readRecord d with
  | error problem =>
    rw [hr] at h
    contradiction
  | ok r =>
    rw [hr] at h
    obtain rfl := Except.ok.inj h
    have hnormal {o : Option Endpoint}
        (ho : (∃ d, readOption Endpoint.ofJson d = .ok o) ∨ some none = some o) :
        ∀ e ∈ o, e.Normal := by
      intro e he
      rcases ho with ⟨d, hd⟩ | hnone
      · exact Endpoint.normal_of_ofJson (of_readOption_ok hd e he)
      · rw [← Option.some.inj hnone] at he
        contradiction
    exact ⟨hnormal (Schema.readRecord_sourced hr Field.localEndpoint),
      hnormal (Schema.readRecord_sourced hr Field.remoteEndpoint)⟩

theorem normal_of_ofText {text : String} {s : Span} (h : ofText text = .ok s) : s.Normal := by
  obtain ⟨a, ha, h⟩ := bind_eq_ok.1 h
  split at h
  · contradiction
  · exact normal_of_ofJson (Except.ok.inj h ▸ ha)

def Step.endpoint? : Step → Option Endpoint
  | .localEndpoint e => some e
  | .remoteEndpoint e => some e
  | _ => none

/-- A step keeps the endpoints there are or puts one in the place of another. -/
theorem normal_apply {s : Span} (h : s.Normal) {st : Step} (hst : ∀ e ∈ st.endpoint?, e.Normal) :
    (s.apply st).Normal := by
  cases st with
  | localEndpoint e => exact ⟨hst, h.remoteEndpoint⟩
  | remoteEndpoint e => exact ⟨h.localEndpoint, hst⟩
  | _ => exact ⟨h.localEndpoint, h.remoteEndpoint⟩

/-- The spans that are put together step by step, with endpoints that are. -/
inductive Built : Span → Prop
  | new (traceId : TraceId) (id : SpanId) : Built (new traceId id)
  | step {s : Span} {st : Step} (h : Built s) (hst : ∀ e ∈ st.endpoint?, e.Built) :
    Built (s.apply st)

theorem Built.normal {s : Span} (h : s.Built) : s.Normal := by
  induction h with
  | new traceId id => exact ⟨nofun, nofun⟩
  | step _ hst ih => exact normal_apply ih fun e he => (hst e he).normal

/-- A span that is written as JSON is read as the same span with normal endpoints. So it stays as
it is exactly when its endpoints are normal, and those of spans that were read or put together
step by step are. -/
theorem json_round_trip :
    (∀ s : Span, ofText s.render = .ok s.normalize) ∧
    (∀ s : Span, ofText s.render = .ok s ↔
      ∀ e, e ∈ s.localEndpoint ∨ e ∈ s.remoteEndpoint →
        e.port ≠ some 0 ∧ ∀ a ∈ e.ipv6, a.mapped? = none) ∧
    (∀ (text : String) (s : Span), ofText text = .ok s → ofText s.render = .ok s) ∧
    (∀ s : Span, s.Built → ofText s.render = .ok s) := by
  have hnormal {s : Span} : ofText s.render = .ok s ↔ s.Normal := by
    rw [ofText_render, Except.ok.injEq, normalize_eq_iff]
  refine ⟨ofText_render, fun s => ?iff, fun text s h => ?read, fun s h => ?built⟩
  case iff =>
    rw [hnormal]
    constructor
    · rintro h e (he | he)
      · exact ⟨(h.localEndpoint e he).port, (h.localEndpoint e he).ipv6⟩
      · exact ⟨(h.remoteEndpoint e he).port, (h.remoteEndpoint e he).ipv6⟩
    · intro h
      exact ⟨fun e he => ⟨(h e (.inl he)).1, (h e (.inl he)).2⟩,
        fun e he => ⟨(h e (.inr he)).1, (h e (.inr he)).2⟩⟩
  case read => exact hnormal.2 (normal_of_ofText h)
  case built => exact hnormal.2 h.normal

/-- A span whose endpoint has port zero, and what is read in its place. -/
theorem json_round_trip_sample :
    let s := Span.sample.withLocalEndpoint { port := some 0 }
    ofText s.render = .ok (Span.sample.withLocalEndpoint .empty) ∧
    ofText s.render ≠ .ok s ∧
    ofText (Span.sample.withLocalEndpoint .empty).render =
      .ok (Span.sample.withLocalEndpoint .empty) ∧
    ofText ((new sample.traceId sample.id).withLocalEndpoint .empty).render =
      .ok ((new sample.traceId sample.id).withLocalEndpoint .empty) := by
  intro s
  have hread : ofText s.render = .ok (Span.sample.withLocalEndpoint .empty) :=
    (json_round_trip.1 s).trans (congrArg Except.ok (by decide))
  have hbuilt : ((new sample.traceId sample.id).apply (.localEndpoint .empty)).Built := by
    refine .step (.new _ _) ?_
    rintro e ⟨⟩
    exact .empty
  refine ⟨hread, fun h => ?_, json_round_trip.2.2.1 _ _ hread, json_round_trip.2.2.2 _ hbuilt⟩
  exact ((json_round_trip.2.1 s).1 h _ (.inl rfl)).1 rfl

end Span

end SpanWire
