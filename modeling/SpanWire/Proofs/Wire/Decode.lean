import SpanWire.Proofs.Tags
import SpanWire.Proofs.Wire.Frames
import SpanWire.Proofs.Wire.Layout
import SpanWire.Proofs.Wire.Message

/-! The decoder of the schema reads the message of a span from the span's encoding. -/
namespace SpanWire

open Wire

namespace Wire

/-- Fields that take a message from one value to another. -/
def Decodes {α : Type} (step : α → WireField → Option α) (m : α) (fs : List WireField) (m' : α) :
    Prop :=
  fs.foldlM step m = some m'

namespace Decodes

variable {α : Type} {step : α → WireField → Option α} {m m' m'' : α}

theorem nil : Decodes step m [] m :=
  rfl

theorem append {fs gs : List WireField} (hf : Decodes step m fs m') (hg : Decodes step m' gs m'') :
    Decodes step m (fs ++ gs) m'' := by
  rw [Decodes, List.foldlM_append, hf]
  exact hg

theorem single {f : WireField} (h : step m f = some m') : Decodes step m [f] m' := by
  rw [Decodes, List.foldlM_cons, h]
  rfl

/-- An absent field leaves the message as it is. -/
theorem optional {β : Type} {number : Nat} {payload : β → Payload} (o : Option β)
    (set : α → Option β → α) (hnone : set m none = m)
    (hsome : ∀ b ∈ o, step m ⟨number, payload b⟩ = some (set m (some b))) :
    Decodes step m (optionalField number payload o) (set m o) := by
  cases o with
  | none => exact congrArg some hnone.symm
  | some b => exact single (hsome b rfl)

/-- A number is absent when it has its default. -/
theorem number {v : UInt64} {f : WireField} (set : α → UInt64 → α) (hzero : set m 0 = m)
    (hset : step m f = some (set m v)) :
    Decodes step m (if v = 0 then [] else [f]) (set m v) := by
  split
  · next hv => exact congrArg some (hv ▸ hzero.symm)
  · exact single hset

theorem flag {b : Bool} {f : WireField} (set : α → Bool → α) (hfalse : set m false = m)
    (htrue : step m f = some (set m true)) :
    Decodes step m (if b then [f] else []) (set m b) := by
  cases b with
  | false => exact congrArg some hfalse.symm
  | true => exact single htrue

/-- Bytes that spell fields are read as these, and the message is what the fields make. -/
theorem readMessage_eq {fs : List WireField} (h : Decodes step m fs m') (hfits : ∀ f ∈ fs, f.Fits) :
    readMessage step m (fs.flatMap WireField.bytes) = some m' := by
  rw [readMessage, readFields_flatMap hfits]
  exact h

end Decodes

end Wire

theorem Endpoint.decodes_fields (e : Endpoint) :
    Decodes EndpointMessage.step {} e.fields e.message := by
  rw [fields]
  iterate 3 apply Decodes.append
  · refine .optional _ (fun (m : EndpointMessage) o => { m with serviceName := o.getD "" }) rfl ?_
    intro name _
    simp [EndpointMessage.step, textPayload]
  · exact .optional _ (fun (m : EndpointMessage) o => { m with ipv4 := o.elim [] IPv4.octets }) rfl
      fun _ _ => rfl
  · exact .optional _ (fun (m : EndpointMessage) o => { m with ipv6 := o.elim [] IPv6.octets }) rfl
      fun _ _ => rfl
  · exact .optional _ (fun (m : EndpointMessage) (o : Option UInt16) =>
      { m with port := o.elim 0 fun port => Int32.ofNat port.toNat }) rfl fun _ _ => rfl

theorem Endpoint.ofBytes?_fields {e : Endpoint} (h : e.size < 2 ^ 64) :
    EndpointMessage.ofBytes? (e.fields.flatMap WireField.bytes) = some e.message :=
  e.decodes_fields.readMessage_eq (writes_spells h).fits

theorem Annotation.ofBytes?_fields {a : Annotation} (h : a.size < 2 ^ 64) :
    AnnotationMessage.ofBytes? (a.fields.flatMap WireField.bytes) = some a.message := by
  refine Decodes.readMessage_eq ?_ (writes_spells h).fits
  simp [Decodes, fields, AnnotationMessage.step, textPayload, message]

theorem ofBytes?_tagFields {key value : String} (h : tagSize key value < 2 ^ 64) :
    TagMessage.ofBytes? ((tagFields key value).flatMap WireField.bytes) = some ⟨key, value⟩ := by
  refine Decodes.readMessage_eq ?_ (writes_spells_tag h).fits
  simp [Decodes, tagFields, TagMessage.step, textPayload]

/-- Repeated fields add to the annotations in their order. -/
theorem decodes_annotations (m : SpanMessage) {as : List Annotation}
    (h : ∀ a ∈ as, a.size < 2 ^ 64) :
    Decodes SpanMessage.step m (as.map fun a => ⟨10, messagePayload a.fields⟩)
      { m with annotations := m.annotations ++ as.map Annotation.message } := by
  induction as generalizing m with
  | nil => simp [Decodes]
  | cons a as ih =>
    obtain ⟨ha, has⟩ := List.forall_mem_cons.1 h
    have hstep : SpanMessage.step m ⟨10, messagePayload a.fields⟩ =
        some { m with annotations := m.annotations ++ [a.message] } := by
      rw [messagePayload, SpanMessage.step, Annotation.ofBytes?_fields ha]
      rfl
    have hrest := ih { m with annotations := m.annotations ++ [a.message] } has
    rw [List.append_assoc, List.singleton_append] at hrest
    exact .append (.single hstep) hrest

theorem decodes_tags {m : SpanMessage} {es : List (String × String)} {t : Tags}
    (h : ∀ e ∈ es, tagSize e.1 e.2 < 2 ^ 64)
    (ht : es.foldl (fun t e => t.insert e.1 e.2) m.tags = t) :
    Decodes SpanMessage.step m (es.map fun e => ⟨11, messagePayload (tagFields e.1 e.2)⟩)
      { m with tags := t } := by
  subst ht
  induction es generalizing m with
  | nil => exact .nil
  | cons e es ih =>
    obtain ⟨he, hes⟩ := List.forall_mem_cons.1 h
    have hstep : SpanMessage.step m ⟨11, messagePayload (tagFields e.1 e.2)⟩ =
        some { m with tags := m.tags.insert e.1 e.2 } := by
      rw [messagePayload, SpanMessage.step, ofBytes?_tagFields he]
      rfl
    exact .append (.single hstep) (ih hes)

/-- An endpoint that is there and not empty takes its place in the message. -/
theorem decodes_endpoint {m : SpanMessage} {number : Nat}
    (set : SpanMessage → Option EndpointMessage → SpanMessage) (hnone : set m none = m)
    (hsome : ∀ bs, SpanMessage.step m ⟨number, .delimited bs⟩ =
      (EndpointMessage.ofBytes? bs).map fun e => set m (some e))
    {o : Option Endpoint} (h : ∀ e ∈ o, e.isEmpty = false → e.size < 2 ^ 64) :
    Decodes SpanMessage.step m (endpointFields number o)
      (set m ((o.filter (!·.isEmpty)).map Endpoint.message)) := by
  refine .optional _ (fun m o => set m (o.map Endpoint.message)) hnone fun e he => ?_
  rw [Option.mem_def, Option.filter_eq_some_iff, Bool.not_eq_true'] at he
  rw [messagePayload, hsome, Endpoint.ofBytes?_fields (h e he.1 he.2)]
  rfl

theorem Span.decodes_fields {s : Span} (h : s.PartsFit) :
    Decodes SpanMessage.step {} s.fields s.message := by
  rw [fields]
  iterate 12 apply Decodes.append
  · exact .single rfl
  · exact .optional _ (fun (m : SpanMessage) o => { m with parentId := o.elim [] SpanId.toBytes })
      rfl fun _ _ => rfl
  · exact .single rfl
  · exact .optional _ (fun (m : SpanMessage) (o : Option Kind) =>
      { m with kind := o.elim 0 fun kind => Int32.ofNat kind.wireValue.toNat }) rfl fun _ _ => rfl
  · refine .optional _ (fun (m : SpanMessage) o => { m with name := o.getD "" }) rfl ?_
    intro name _
    simp [SpanMessage.step, textPayload]
  · exact .number (fun (m : SpanMessage) timestamp => { m with timestamp }) rfl rfl
  · exact .number (fun (m : SpanMessage) duration => { m with duration }) rfl rfl
  · exact decodes_endpoint (fun m localEndpoint => { m with localEndpoint }) rfl (fun _ => rfl)
      h.localEndpoint
  · exact decodes_endpoint (fun m remoteEndpoint => { m with remoteEndpoint }) rfl (fun _ => rfl)
      h.remoteEndpoint
  · exact decodes_annotations _ h.annotations
  · exact decodes_tags h.tags s.tags.foldl_insert
  · exact .flag (fun (m : SpanMessage) debug => { m with debug }) rfl rfl
  · exact .flag (fun (m : SpanMessage) shared => { m with shared }) rfl rfl

theorem Span.ofBytes?_fields {s : Span} (h : s.PartsFit) :
    SpanMessage.ofBytes? (s.fields.flatMap WireField.bytes) = some s.message :=
  (decodes_fields h).readMessage_eq (writes_spells h).fits

theorem Span.ofBytes?_encode {s : Span} (h : s.PartsFit) :
    SpanMessage.ofBytes? s.encode.toList = some s.message := by
  rw [encode_eq, List.toList_toArray, (writes_spells h).bytes, ofBytes?_fields h]

theorem Span.spells_frame {s : Span} (h : s.size < 2 ^ 64) :
    Spells s.frameWrites [⟨1, messagePayload s.fields⟩] :=
  spells_message (by decide) (writes_spells (partsFit h)) s.length_writes h

theorem spells_frames {spans : List Span} (h : ∀ s ∈ spans, s.size < 2 ^ 64) :
    Spells (spans.flatMap Span.frameWrites) (spans.map fun s => ⟨1, messagePayload s.fields⟩) :=
  .flatMap fun s hs => Span.spells_frame (h s hs)

theorem decodes_frames (messages : List SpanMessage) {spans : List Span}
    (h : ∀ s ∈ spans, s.size < 2 ^ 64) :
    Decodes spansStep messages (spans.map fun s => ⟨1, messagePayload s.fields⟩)
      (messages ++ spans.map Span.message) := by
  induction spans generalizing messages with
  | nil => simp [Decodes]
  | cons s spans ih =>
    obtain ⟨hs, hspans⟩ := List.forall_mem_cons.1 h
    have hstep : spansStep messages ⟨1, messagePayload s.fields⟩ =
        some (messages ++ [s.message]) := by
      rw [messagePayload, spansStep, Span.ofBytes?_fields (Span.partsFit hs)]
      rfl
    have hrest := ih (messages ++ [s.message]) hspans
    rw [List.append_assoc, List.singleton_append] at hrest
    exact .append (.single hstep) hrest

theorem spansOfBytes?_encodeList {spans : List Span} (h : ∀ s ∈ spans, s.size < 2 ^ 64) :
    spansOfBytes? (encodeList spans).toList = some (spans.map Span.message) := by
  have hspells := spells_frames h
  rw [encodeList_eq, List.toList_toArray, hspells.bytes]
  exact (decodes_frames [] h).readMessage_eq hspells.fits

/-- What is decoded from the encoding of a span, or of a list of spans, is the message of the span
or the messages of the spans in their order. The bytes of the identifiers there are those that
their digits spell. -/
theorem decode_encode :
    (∀ s : Span, s.size < 2 ^ 64 →
      SpanMessage.ofBytes? s.encode.toList = some s.message ∧
      Hex.spell (Hex.ofBytes s.message.traceId) = toString s.traceId ∧
      (∀ id ∈ s.parentId, Hex.spell (Hex.ofBytes s.message.parentId) = toString id) ∧
      Hex.spell (Hex.ofBytes s.message.id) = toString s.id) ∧
    ∀ spans : List Span, (∀ s ∈ spans, s.size < 2 ^ 64) →
      spansOfBytes? (encodeList spans).toList = some (spans.map Span.message) := by
  refine ⟨fun s h => ⟨Span.ofBytes?_encode (Span.partsFit h), ?trace, ?parent, ?id⟩,
    fun spans h => spansOfBytes?_encodeList h⟩
  case trace =>
    have hwidth := s.traceId.width
    exact congrArg Hex.spell (Hex.ofBytes_toBytes (by omega))
  case parent =>
    intro id hid
    have hwidth := id.width
    have hmessage : s.message.parentId = id.toBytes := by
      rw [Span.message, Option.mem_def.1 hid, Option.elim_some]
    rw [hmessage]
    exact congrArg Hex.spell (Hex.ofBytes_toBytes (by omega))
  case id =>
    have hwidth := s.id.width
    exact congrArg Hex.spell (Hex.ofBytes_toBytes (by omega))

theorem decode_encode_sample :
    SpanMessage.ofBytes? Span.sample.encode.toList = some Span.sample.message ∧
    spansOfBytes? (encodeList [.sample, .sample]).toList =
      some [Span.sample.message, Span.sample.message] := by
  have h : Span.sample.size < 2 ^ 64 := by decide
  refine ⟨(decode_encode.1 .sample h).1, decode_encode.2 [.sample, .sample] fun s hs => ?_⟩
  obtain rfl : s = .sample := by simpa using hs
  exact h

end SpanWire
