import SpanWire.Proofs.Json.Sound
import SpanWire.Proofs.Span.Json

/-!
Spans with known keys only. The readers of their parts skip nothing, so whatever they take is
sound and nests no deeper than four levels.
-/
namespace SpanWire

open Json

/-- Every key of the endpoint's object is that of a field. -/
def Endpoint.KnownKeys : Draft → Prop :=
  schema.KnownKeys fun _ => anyDraft

def Annotation.KnownKeys : Draft → Prop :=
  schema.KnownKeys fun _ => anyDraft

/-- What stands in a field of a span has known keys itself. -/
def Span.Field.Known : Span.Field → Draft → Prop
  | localEndpoint => Endpoint.KnownKeys
  | remoteEndpoint => Endpoint.KnownKeys
  | annotations => EachItem Annotation.KnownKeys
  | _ => anyDraft

/-- Every key in the objects of the span, its endpoints and its annotations is that of a field. -/
def Span.KnownKeys : Draft → Prop :=
  schema.KnownKeys Field.Known

theorem Endpoint.Field.readsSound (f : Field) : ReadsSound f.read anyDraft 0 := by
  cases f with
  | serviceName => exact (readsSound_text _ _ _).option
  | ipv4 => exact ((readsSound_text _ _ _).bind _).option
  | ipv6 => exact ((readsSound_text _ _ _).bind _).option
  | port => exact ((readsSound_nat _ _ _ _).map _).option

theorem Endpoint.readsSound : ReadsSound ofJson KnownKeys 1 :=
  (Schema.readsSound_record (by decide) Field.readsSound).map ofRecord

theorem Annotation.Field.readsSound (f : Field) : ReadsSound f.read anyDraft 0 := by
  cases f with
  | timestamp => exact (readsSound_nat _ _ _ _).map _
  | value => exact readsSound_text _ _ _

theorem Annotation.readsSound : ReadsSound ofJson KnownKeys 1 :=
  (Schema.readsSound_record (by decide) Field.readsSound).map ofRecord

theorem Kind.readsSound : ReadsSound ofJson anyDraft 1 := by
  intro d kind depth _ hread
  unfold ofJson at hread
  split at hread
  · contradiction
  · rw [Draft.isSound_leaf]
    obtain ⟨name, hname, -⟩ := bind_eq_ok.1 hread
    exact Quotation.isSound_of_value (mapError_eq_ok.1 hname)
  · next key d others cut _ =>
    obtain ⟨name, hname, hread⟩ := bind_eq_ok.1 hread
    obtain ⟨variant, -, hread⟩ := bind_eq_ok.1 hread
    obtain ⟨u, hunit, hread⟩ := bind_eq_ok.1 hread
    have hvalue := readsSound_unit anyDraft 0 d u depth trivial hunit
    split at hread
    · contradiction
    · next hothers =>
      obtain ⟨v, hcut, -⟩ := bind_eq_ok.1 hread
      obtain rfl : others = [] := by simpa using hothers
      refine Draft.isSound_object.2 ⟨failOn_eq_ok hcut, List.forall_mem_singleton.2 ?_⟩
      exact ⟨isSoundToken_of_readKey hname, hvalue⟩
  · contradiction

theorem Span.Field.readsSound (f : Field) : ReadsSound f.read f.Known 2 := by
  cases f with
  | traceId => exact (readsSound_text _ _ _).bind _
  | parentId => exact ((readsSound_text _ _ _).bind _).option
  | id => exact (readsSound_text _ _ _).bind _
  | kind => exact (Kind.readsSound.deeper 1).option
  | name => exact (readsSound_text _ _ _).option
  | timestamp => exact (readsSound_nat _ _ _ _).map _
  | duration => exact (readsSound_nat _ _ _ _).map _
  | localEndpoint => exact (Endpoint.readsSound.deeper 1).option
  | remoteEndpoint => exact (Endpoint.readsSound.deeper 1).option
  | annotations => exact Annotation.readsSound.list
  | tags =>
    have hentries : ReadsSound (readEntries (readText .string)) anyDraft 1 :=
      (readsSound_text _ _ _).entries
    exact (hentries.map Tags.ofList).deeper 1
  | debug => exact readsSound_bool _ _
  | shared => exact readsSound_bool _ _

theorem Span.readsSound : ReadsSound ofJson KnownKeys 3 :=
  (Schema.readsSound_record (by decide) Field.readsSound).map ofRecord

theorem Endpoint.knownKeys_toJson (e : Endpoint) : KnownKeys e.toJson.draft := by
  rw [toJson_eq]
  exact Schema.knownKeys_written fun _ _ _ => trivial

theorem Annotation.knownKeys_toJson (a : Annotation) : KnownKeys a.toJson.draft := by
  change schema.KnownKeys _
    (Value.object (schema.fields.flatMap (schema.memberOf a.written))).draft
  exact Schema.knownKeys_written fun _ _ _ => trivial

theorem Annotation.eachItem_knownKeys (as : List Annotation) :
    EachItem KnownKeys (Value.array (as.map toJson)).draft := by
  rw [Value.draft_array, List.map_map]
  intro d hd
  obtain ⟨a, -, rfl⟩ := List.mem_map.1 hd
  exact a.knownKeys_toJson

/-- What is written for a span has known keys only. -/
theorem Span.knownKeys_toJson (s : Span) : KnownKeys s.toJson.draft := by
  rw [toJson_eq]
  refine Schema.knownKeys_written fun f v hv => ?_
  have hendpoint {o : Option Endpoint} (ho : o.map Endpoint.toJson = some v) :
      Endpoint.KnownKeys v.draft := by
    obtain ⟨e, -, rfl⟩ := Option.map_eq_some_iff.1 ho
    exact e.knownKeys_toJson
  cases f with
  | localEndpoint => exact hendpoint hv
  | remoteEndpoint => exact hendpoint hv
  | annotations =>
    change (if !s.annotations.isEmpty then _ else _) = _ at hv
    split at hv
    · obtain rfl := Option.some.inj hv
      exact Annotation.eachItem_knownKeys s.annotations
    · contradiction
  | _ => exact trivial

end SpanWire
