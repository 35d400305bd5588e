import SpanWire.Proofs.Wire.Layout
import SpanWire.Proofs.Wire.Message

/-!
The canonical encoding of a message, which leaves out every field that has its default. A span is
encoded canonically exactly when none of its parts is there with a default value.
-/
namespace SpanWire

open Wire

namespace Wire

def bytesFields (number : Nat) (bs : List UInt8) : List WireField :=
  if bs = [] then [] else [⟨number, .delimited bs⟩]

def textFields (number : Nat) (s : String) : List WireField :=
  bytesFields number (Text.utf8 s)

def numberFields (number : Nat) (payload : UInt64 → Payload) (v : UInt64) : List WireField :=
  if v = 0 then [] else [⟨number, payload v⟩]

/-- Numbers of 32 bits are written in 64, with the sign carried over. -/
def int32Fields (number : Nat) (v : Int32) : List WireField :=
  numberFields number .varint v.toInt64.toUInt64

def boolFields (number : Nat) (b : Bool) : List WireField :=
  if b then [⟨number, .varint 1⟩] else []

def EndpointMessage.canonicalFields (m : EndpointMessage) : List WireField :=
  textFields 1 m.serviceName ++
  bytesFields 2 m.ipv4 ++
  bytesFields 3 m.ipv6 ++
  int32Fields 4 m.port

def AnnotationMessage.canonicalFields (m : AnnotationMessage) : List WireField :=
  numberFields 1 .fixed64 m.timestamp ++ textFields 2 m.value

/-- Also of an entry of a map the parts with defaults are left out. -/
def TagMessage.canonicalFields (m : TagMessage) : List WireField :=
  textFields 1 m.key ++ textFields 2 m.value

/-- Messages within are written whenever they are there, be they empty. -/
def SpanMessage.canonicalFields (m : SpanMessage) : List WireField :=
  bytesFields 1 m.traceId ++
  bytesFields 2 m.parentId ++
  bytesFields 3 m.id ++
  int32Fields 4 m.kind ++
  textFields 5 m.name ++
  numberFields 6 .fixed64 m.timestamp ++
  numberFields 7 .varint m.duration ++
  optionalField 8 (fun e => messagePayload e.canonicalFields) m.localEndpoint ++
  optionalField 9 (fun e => messagePayload e.canonicalFields) m.remoteEndpoint ++
  m.annotations.map (fun a => ⟨10, messagePayload a.canonicalFields⟩) ++
  m.tags.entries.map (fun e =>
    ⟨11, messagePayload (TagMessage.canonicalFields ⟨e.1, e.2⟩)⟩) ++
  boolFields 12 m.debug ++
  boolFields 13 m.shared

def SpanMessage.canonical (m : SpanMessage) : List UInt8 :=
  m.canonicalFields.flatMap WireField.bytes

end Wire

def Endpoint.NoDefaultPart (e : Endpoint) : Prop :=
  e.serviceName ≠ some "" ∧ e.port ≠ some 0

/-- No part is there with a value that stands for its absence. -/
structure Span.NoDefaultPart (s : Span) : Prop where
  name : s.name ≠ some ""
  localEndpoint : ∀ e ∈ s.localEndpoint, e.isEmpty = false → e.NoDefaultPart
  remoteEndpoint : ∀ e ∈ s.remoteEndpoint, e.isEmpty = false → e.NoDefaultPart
  annotations : ∀ a ∈ s.annotations, a.timestamp ≠ 0 ∧ a.value ≠ ""
  tags : ∀ e ∈ s.tags.entries, e.1 ≠ "" ∧ e.2 ≠ ""

namespace Wire

def byteCount (fs : List WireField) : Nat :=
  (fs.flatMap WireField.bytes).length

theorem byteCount_append (fs gs : List WireField) :
    byteCount (fs ++ gs) = byteCount fs + byteCount gs := by
  rw [byteCount, List.flatMap_append, List.length_append, byteCount, byteCount]

theorem byteCount_singleton_pos (f : WireField) : 0 < byteCount [f] := by
  rw [byteCount, List.flatMap_singleton]
  exact List.length_pos_iff.2 f.bytes_ne_nil

/-- The second fields are left of the first when some are trimmed. As long as `p` holds, nothing is
trimmed, and bytes are saved as soon as it does not. -/
structure Trims (p : Prop) (fs gs : List WireField) : Prop where
  same : p → fs = gs
  shorter : ¬ p → byteCount gs < byteCount fs

namespace Trims

variable {p q : Prop} {fs gs fs' gs' : List WireField}

theorem refl (fs : List WireField) : Trims True fs fs :=
  ⟨fun _ => rfl, fun h => (h trivial).elim⟩

theorem of_iff (hpq : p ↔ q) (h : Trims p fs gs) : Trims q fs gs :=
  ⟨fun hq => h.same (hpq.2 hq), fun hq => h.shorter (hq ∘ hpq.1)⟩

theorem byteCount_le (h : Trims p fs gs) : byteCount gs ≤ byteCount fs := by
  by_cases hp : p
  · exact Nat.le_of_eq (by rw [h.same hp])
  · exact Nat.le_of_lt (h.shorter hp)

theorem append (h : Trims p fs gs) (h' : Trims q fs' gs') :
    Trims (p ∧ q) (fs ++ fs') (gs ++ gs') where
  same hpq := by rw [h.same hpq.1, h'.same hpq.2]
  shorter hpq := by
    have hle := h.byteCount_le
    have hle' := h'.byteCount_le
    rw [byteCount_append, byteCount_append]
    by_cases hp : p
    · have hlt := h'.shorter fun hq => hpq ⟨hp, hq⟩
      omega
    · have hlt := h.shorter hp
      omega

/-- What is trimmed within a message is missing in the bytes around it too. -/
theorem message (number : Nat) (h : Trims p fs gs) :
    Trims p [⟨number, messagePayload fs⟩] [⟨number, messagePayload gs⟩] where
  same hp := by rw [h.same hp]
  shorter hp := by
    have hlt := h.shorter hp
    have hprefix := length_leb128_le (Nat.le_of_lt hlt)
    simp only [byteCount, messagePayload, WireField.bytes, List.flatMap_singleton,
      List.length_append] at hlt hprefix ⊢
    omega

theorem map {α : Type} {p : α → Prop} {f g : α → WireField}
    (h : ∀ x, Trims (p x) [f x] [g x]) (xs : List α) :
    Trims (∀ x ∈ xs, p x) (xs.map f) (xs.map g) := by
  induction xs with
  | nil => exact (refl []).of_iff (by simp)
  | cons x xs ih => exact ((h x).append ih).of_iff List.forall_mem_cons.symm

theorem dropped {f : WireField} (hp : ¬ p) : Trims p [f] [] :=
  ⟨fun h => (hp h).elim, fun _ => byteCount_singleton_pos f⟩

end Trims

theorem utf8_eq_nil_iff {s : String} : Text.utf8 s = [] ↔ s = "" := by
  rw [← List.length_eq_zero_iff, Text.length_utf8]
  simp

theorem trims_bytes (number : Nat) (bs : List UInt8) :
    Trims (bs ≠ []) [⟨number, .delimited bs⟩] (bytesFields number bs) := by
  rw [bytesFields]
  split
  · next h => exact .dropped (not_not.2 h)
  · next h => exact (Trims.refl _).of_iff (iff_of_true trivial h)

/-- Bytes of a fixed count are never left out. -/
theorem trims_bytes_of_length {number : Nat} {bs : List UInt8} (h : 0 < bs.length) :
    Trims True [⟨number, .delimited bs⟩] (bytesFields number bs) :=
  (trims_bytes number bs).of_iff (iff_of_true (List.ne_nil_of_length_pos h) trivial)

theorem trims_text (number : Nat) (s : String) :
    Trims (s ≠ "") [⟨number, textPayload s⟩] (textFields number s) :=
  (trims_bytes number (Text.utf8 s)).of_iff utf8_eq_nil_iff.not

theorem trims_number (number : Nat) (payload : UInt64 → Payload) (v : UInt64) :
    Trims (v ≠ 0) [⟨number, payload v⟩] (numberFields number payload v) := by
  rw [numberFields]
  split
  · next h => exact .dropped (not_not.2 h)
  · next h => exact (Trims.refl _).of_iff (iff_of_true trivial h)

/-- Numbers below half of the range are not taken for negative ones. -/
theorem trims_int32 (number : Nat) {v : UInt64} (h : v.toNat < 2 ^ 31) :
    Trims (v ≠ 0) [⟨number, .varint v⟩] (int32Fields number (Int32.ofNat v.toNat)) := by
  have hmax : (v.toNat : Int) ≤ Int32.maxValue.toInt := by
    rw [Int32.toInt_maxValue]
    omega
  rw [int32Fields, Int32.toInt64_ofNat' hmax, ← UInt64.toInt64_ofNat', UInt64.ofNat_toNat,
    UInt64.toUInt64_toInt64]
  exact trims_number number .varint v

/-- An absent part has its default in the message and is no field there either. -/
theorem trims_optional {α : Type} {number : Nat} {payload : α → Payload} {p : α → Prop}
    (fields : Option α → List WireField) (hnone : fields none = [])
    (hsome : ∀ a, Trims (p a) [⟨number, payload a⟩] (fields (some a))) (o : Option α) :
    Trims (∀ a ∈ o, p a) (optionalField number payload o) (fields o) := by
  cases o with
  | none =>
    rw [hnone]
    exact (Trims.refl []).of_iff (by simp)
  | some a => exact (hsome a).of_iff (by simp)

private theorem forall_mem_ne_iff {α : Type} {o : Option α} {a : α} :
    (∀ b ∈ o, b ≠ a) ↔ o ≠ some a := by
  cases o <;> simp

theorem trims_name (number : Nat) (o : Option String) :
    Trims (o ≠ some "") (optionalField number textPayload o) (textFields number (o.getD "")) :=
  (trims_optional (fun o => textFields number (o.getD "")) rfl (trims_text number) o).of_iff
    forall_mem_ne_iff

end Wire

theorem Endpoint.trims (e : Endpoint) :
    Trims e.NoDefaultPart e.fields e.message.canonicalFields := by
  have hipv4 : Trims (∀ a ∈ e.ipv4, True)
      (optionalField 2 (fun a => .delimited a.octets) e.ipv4) (bytesFields 2 e.message.ipv4) := by
    refine trims_optional (fun o => bytesFields 2 (o.elim [] IPv4.octets)) rfl (fun a => ?_) _
    exact trims_bytes_of_length (by rw [a.length_eq]; decide)
  have hipv6 : Trims (∀ a ∈ e.ipv6, True)
      (optionalField 3 (fun a => .delimited a.octets) e.ipv6) (bytesFields 3 e.message.ipv6) := by
    refine trims_optional (fun o => bytesFields 3 (o.elim [] IPv6.octets)) rfl (fun a => ?_) _
    exact trims_bytes_of_length (by rw [a.length_octets]; decide)
  have hport : Trims (∀ port ∈ e.port, port ≠ 0)
      (optionalField 4 (fun port => .varint port.toUInt64) e.port)
      (int32Fields 4 e.message.port) := by
    let fields (o : Option UInt16) : List WireField :=
      int32Fields 4 (o.elim 0 fun port => Int32.ofNat port.toNat)
    have hnone : fields none = [] := by decide
    refine trims_optional fields hnone (fun port => ?_) _
    have hlt : port.toUInt64.toNat < 2 ^ 31 := Nat.lt_trans port.toNat_lt (by decide)
    have hzero : port.toUInt64 ≠ 0 ↔ port ≠ 0 := by
      simp [← UInt64.toNat_inj, ← UInt16.toNat_inj]
    exact (trims_int32 4 hlt).of_iff hzero
  refine ((((trims_name 1 _).append hipv4).append hipv6).append hport).of_iff ?_
  simp only [implies_true, and_true, NoDefaultPart, forall_mem_ne_iff]

theorem Annotation.trims (a : Annotation) :
    Trims (a.timestamp ≠ 0 ∧ a.value ≠ "") a.fields a.message.canonicalFields :=
  (trims_number 1 .fixed64 a.timestamp).append (trims_text 2 a.value)

theorem trims_tag (key value : String) :
    Trims (key ≠ "" ∧ value ≠ "") (tagFields key value)
      (TagMessage.canonicalFields ⟨key, value⟩) :=
  (trims_text 1 key).append (trims_text 2 value)

theorem trims_endpoint (number : Nat) (o : Option Endpoint) :
    Trims (∀ e ∈ o, e.isEmpty = false → e.NoDefaultPart) (endpointFields number o)
      (optionalField number (fun e => messagePayload e.canonicalFields)
        ((o.filter (!·.isEmpty)).map Endpoint.message)) := by
  cases o with
  | none => exact (Trims.refl []).of_iff (by simp)
  | some e =>
    rw [endpointFields, Option.filter_some]
    cases he : e.isEmpty with
    | true => exact (Trims.refl []).of_iff (by simp [he])
    | false => exact (e.trims.message number).of_iff (by simp [he])

theorem Span.trims (s : Span) : Trims s.NoDefaultPart s.fields s.message.canonicalFields := by
  have hparent : Trims (∀ id ∈ s.parentId, True)
      (optionalField 2 (fun id => .delimited id.toBytes) s.parentId)
      (bytesFields 2 s.message.parentId) := by
    refine trims_optional (fun o => bytesFields 2 (o.elim [] SpanId.toBytes)) rfl (fun id => ?_) _
    exact trims_bytes_of_length (by rw [SpanId.toBytes, Hex.length_toBytes, id.width]; decide)
  have hkind : Trims (∀ kind ∈ s.kind, True)
      (optionalField 4 (fun kind => .varint kind.wireValue.toUInt64) s.kind)
      (int32Fields 4 s.message.kind) := by
    let fields (o : Option Kind) : List WireField :=
      int32Fields 4 (o.elim 0 fun kind => Int32.ofNat kind.wireValue.toNat)
    have hnone : fields none = [] := by decide
    refine trims_optional fields hnone (fun kind => ?_) _
    have hlt : kind.wireValue.toUInt64.toNat < 2 ^ 31 :=
      Nat.lt_trans kind.wireValue.toNat_lt (by decide)
    have hne : kind.wireValue.toUInt64 ≠ 0 := by cases kind <;> decide
    exact (trims_int32 4 hlt).of_iff (iff_of_true hne trivial)
  have htrace : Trims True [⟨1, .delimited s.traceId.toBytes⟩]
      (bytesFields 1 s.message.traceId) := by
    have hwidth := s.traceId.width
    exact trims_bytes_of_length (by rw [TraceId.toBytes, Hex.length_toBytes]; omega)
  have hid : Trims True [⟨3, .delimited s.id.toBytes⟩] (bytesFields 3 s.message.id) :=
    trims_bytes_of_length (by rw [SpanId.toBytes, Hex.length_toBytes, s.id.width]; decide)
  have hannotations : Trims (∀ a ∈ s.annotations, a.timestamp ≠ 0 ∧ a.value ≠ "")
      (s.annotations.map fun a => ⟨10, messagePayload a.fields⟩)
      (s.message.annotations.map fun a => ⟨10, messagePayload a.canonicalFields⟩) := by
    rw [message, List.map_map]
    exact .map (fun a => a.trims.message 10) _
  have htags := Trims.map (fun e => (trims_tag e.1 e.2).message 11) s.tags.entries
  have hids := (htrace.append hparent).append hid
  have hnumbers := ((((hids.append hkind).append (trims_name 5 s.name)).append
    (.refl (numberFields 6 .fixed64 s.timestamp))).append
    (.refl (numberFields 7 .varint s.duration)))
  have hmessages := (((hnumbers.append (trims_endpoint 8 s.localEndpoint)).append
    (trims_endpoint 9 s.remoteEndpoint)).append hannotations).append htags
  refine ((hmessages.append (.refl (boolFields 12 s.debug))).append
    (.refl (boolFields 13 s.shared))).of_iff ?_
  simp only [implies_true, true_and, and_true]
  exact ⟨fun ⟨⟨⟨⟨hname, hlocal⟩, hremote⟩, hannotation⟩, htag⟩ =>
    ⟨hname, hlocal, hremote, hannotation, htag⟩,
    fun h => ⟨⟨⟨⟨h.name, h.localEndpoint⟩, h.remoteEndpoint⟩, h.annotations⟩, h.tags⟩⟩

/-- A span is encoded canonically, and to the canonical length, exactly when none of its parts is
there with its default. If one is, the encoding is longer. -/
theorem Span.encode_canonical_iff {s : Span} (h : s.size < 2 ^ 64) :
    (s.encode.toList = s.message.canonical ∧ s.size = s.message.canonical.length ↔
      s.NoDefaultPart) ∧
    (¬ s.NoDefaultPart → s.message.canonical.length < s.encode.size) := by
  have hencode : s.encode.toList = s.fields.flatMap WireField.bytes := by
    rw [encode_eq, List.toList_toArray, (writes_spells (partsFit h)).bytes]
  have hsize : s.encode.size = byteCount s.fields := by
    rw [← Array.length_toList, hencode, byteCount]
  have hlonger (hs : ¬ s.NoDefaultPart) : s.message.canonical.length < s.encode.size := by
    rw [hsize]
    exact s.trims.shorter hs
  refine ⟨⟨fun ⟨_, hlength⟩ => ?_, fun hs => ?_⟩, hlonger⟩
  · by_cases hs : s.NoDefaultPart
    · exact hs
    · have hlt := hlonger hs
      rw [size_encode] at hlt
      omega
  · have hfields := s.trims.same hs
    refine ⟨by rw [hencode, hfields, SpanMessage.canonical], ?_⟩
    rw [← size_encode, hsize, hfields, byteCount, SpanMessage.canonical]

/-- A span whose parts all say something, and the same span with an empty name. -/
theorem Span.encode_canonical_sample :
    Span.sample.encode.toList = Span.sample.message.canonical ∧
    (Span.sample.withName "").message.canonical.length < (Span.sample.withName "").encode.size := by
  have hsample : Span.sample.size < 2 ^ 64 := by decide
  have hnamed : (Span.sample.withName "").size < 2 ^ 64 := by decide
  have hnone : Span.sample.NoDefaultPart := by
    refine ⟨by decide, ?_, ?_, by decide, by decide⟩
    · rintro e ⟨⟩ he
      contradiction
    · rintro e ⟨⟩ _
      exact ⟨by decide, by decide⟩
  exact ⟨((encode_canonical_iff hsample).1.2 hnone).1,
    (encode_canonical_iff hnamed).2 fun h => h.name rfl⟩

end SpanWire
