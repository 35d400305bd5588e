import SpanWire.Proofs.Tags
import SpanWire.Proofs.Wire.Extent
import SpanWire.Proofs.Wire.Layout
import SpanWire.Wire.Codec

/-!
Which warnings an encoder gives. The size in a warning comes from a computation, the size of a field
from the bytes that are written for it; the fields of an encoding are told apart here by their
numbers, so that the two can be compared.
-/
namespace SpanWire

open Wire

/-- The writes of a span, field by field, each with its number. Absent parts have no field. -/
def Span.fieldWrites (s : Span) : List (Nat × List Write) :=
  [(1, idField 1 s.traceId.digits)] ++
  (s.parentId.map fun id => (2, idField 2 id.digits)).toList ++
  [(3, idField 3 s.id.digits)] ++
  (s.kind.map fun kind => (4, [.byte (fieldKey 4 .varint), .byte kind.wireValue])).toList ++
  (s.name.map fun name => (5, textField 5 name)).toList ++
  (if s.timestamp = 0 then []
    else [(6, [.byte (fieldKey 6 .fixed64), .fixed64 s.timestamp])]) ++
  (if s.duration = 0 then [] else [(7, [.byte (fieldKey 7 .varint), .varint s.duration])]) ++
  ((s.localEndpoint.filter (!·.isEmpty)).map fun e => (8, endpointField 8 (some e))).toList ++
  ((s.remoteEndpoint.filter (!·.isEmpty)).map fun e => (9, endpointField 9 (some e))).toList ++
  s.annotations.map (fun a => (10, annotationField 10 a)) ++
  s.tags.entries.map (fun e => (11, tagField 11 e.1 e.2)) ++
  (if s.debug then [(12, flagField 12 true)] else []) ++
  (if s.shared then [(13, flagField 13 true)] else [])

/-- The fields of an encoding, each with its number and with all of its bytes: its key, its length
and what it holds. -/
def fieldBytes (fields : List (Nat × List Write)) : List (Nat × List UInt8) :=
  fields.map fun f => (f.1, encodings f.2)

theorem flatMap_fieldBytes (fields : List (Nat × List Write)) :
    (fieldBytes fields).flatMap Prod.snd = encodings (fields.flatMap Prod.snd) := by
  induction fields with
  | nil => rfl
  | cons f fields ih =>
    rw [List.flatMap_cons, encodings_append, ← ih]
    rfl

/-- What a field is called in a warning, if it is one that may be called huge. -/
def contextOf? : Nat → Option String
  | 5 => some "name"
  | 8 => some "local service name"
  | 9 => some "remote service name"
  | 10 => some "annotation"
  | 11 => some "tag"
  | _ => none

/-- What is to be said about a field. -/
def Span.complaint? (s : Span) (threshold : Nat) (field : Nat × List UInt8) : Option String :=
  match contextOf? field.1 with
  | none => none
  | some context =>
    if threshold < field.2.length then
      some (s!"Span {s.traceId}/{s.id} includes a huge {context} " ++
        s!"that will take {field.2.length} bytes to encode")
    else none

/-- Fields with their numbers, next to the same fields as writes in a row, as they are read and as
they count for the warnings. -/
structure Listed (s : Span) (threshold : Nat) (fields : List (Nat × List Write)) (ws : List Write)
    (read : List WireField) (growing : List (HugeField × Nat)) : Prop where
  writes : fields.flatMap Prod.snd = ws
  read : s.PartsFit → read.map (fun f => (f.number, f.bytes)) = fieldBytes fields
  complaints : (fieldBytes fields).filterMap (s.complaint? threshold) =
    (growing.filter (threshold < ·.2)).map fun g => Warning.message ⟨s.traceId, s.id, g.1, g.2⟩

namespace Listed

variable {s : Span} {threshold : Nat}

theorem nil : Listed s threshold [] [] [] [] :=
  ⟨rfl, fun _ => rfl, rfl⟩

theorem append {ps qs : List (Nat × List Write)} {ws vs : List Write} {fs gs : List WireField}
    {as bs : List (HugeField × Nat)} (hp : Listed s threshold ps ws fs as)
    (hq : Listed s threshold qs vs gs bs) :
    Listed s threshold (ps ++ qs) (ws ++ vs) (fs ++ gs) (as ++ bs) where
  writes := by rw [List.flatMap_append, hp.writes, hq.writes]
  read h := by rw [List.map_append, hp.read h, hq.read h, fieldBytes, fieldBytes, fieldBytes,
    List.map_append]
  complaints := by
    have hps := hp.complaints
    have hqs := hq.complaints
    unfold fieldBytes at hps hqs ⊢
    rw [List.map_append, List.filterMap_append, hps, hqs, List.filter_append, List.map_append]

theorem read_single {number : Nat} {payload : Payload} {ws : List Write}
    (h : Spells ws [⟨number, payload⟩]) :
    [(⟨number, payload⟩ : WireField)].map (fun f => (f.number, f.bytes)) =
      fieldBytes [(number, ws)] := by
  have hbytes := h.bytes
  rw [List.flatMap_singleton] at hbytes
  change [(number, _)] = [(number, _)]
  rw [hbytes]

/-- A field that is never called huge. -/
theorem plain {number : Nat} {payload : Payload} {ws : List Write}
    (hcontext : contextOf? number = none) (h : s.PartsFit → Spells ws [⟨number, payload⟩]) :
    Listed s threshold [(number, ws)] ws [⟨number, payload⟩] [] where
  writes := List.flatMap_singleton _ _
  read hfit := read_single (h hfit)
  complaints := by
    change List.filterMap _ [(number, encodings ws)] = []
    rw [List.filterMap_cons, Span.complaint?, hcontext]
    rfl

/-- A field that may be called huge is so by the number of its bytes. -/
theorem growing {number size : Nat} {payload : Payload} {ws : List Write} {g : HugeField}
    (hcontext : contextOf? number = some g.describe) (hlen : (encodings ws).length = size)
    (h : s.PartsFit → Spells ws [⟨number, payload⟩]) :
    Listed s threshold [(number, ws)] ws [⟨number, payload⟩] [(g, size)] where
  writes := List.flatMap_singleton _ _
  read hfit := read_single (h hfit)
  complaints := by
    subst hlen
    change List.filterMap _ [(number, encodings ws)] = _
    by_cases hhuge : threshold < (encodings ws).length
    · have hsome : s.complaint? threshold (number, encodings ws) =
          some (Warning.message ⟨s.traceId, s.id, g, (encodings ws).length⟩) := by
        rw [Span.complaint?, hcontext]
        exact if_pos hhuge
      have hkeep : [(g, (encodings ws).length)].filter (threshold < ·.2) =
          [(g, (encodings ws).length)] :=
        List.filter_cons_of_pos (decide_eq_true hhuge)
      rw [List.filterMap_cons_some hsome, hkeep]
      rfl
    · have hnone : s.complaint? threshold (number, encodings ws) = none := by
        rw [Span.complaint?, hcontext]
        exact if_neg hhuge
      have hdrop : [(g, (encodings ws).length)].filter (threshold < ·.2) = [] :=
        List.filter_cons_of_neg (by simpa using hhuge)
      rw [List.filterMap_cons_none hnone, hdrop]
      rfl

/-- What takes no bytes is not above any threshold. -/
theorem absent (g : HugeField) : Listed s threshold [] [] [] [(g, 0)] where
  writes := rfl
  read _ := rfl
  complaints := by
    have hdrop : [(g, 0)].filter (threshold < ·.2) = [] :=
      List.filter_cons_of_neg (by simp)
    rw [hdrop]
    rfl

theorem map {α : Type} {number : Nat} {payload : α → Payload} {write : α → List Write}
    {growing : α → HugeField × Nat} {xs : List α}
    (h : ∀ x ∈ xs, Listed s threshold [(number, write x)] (write x) [⟨number, payload x⟩]
      [growing x]) :
    Listed s threshold (xs.map fun x => (number, write x)) (xs.flatMap write)
      (xs.map fun x => ⟨number, payload x⟩) (xs.map growing) := by
  induction xs with
  | nil => exact nil
  | cons x xs ih =>
    obtain ⟨hx, hxs⟩ := List.forall_mem_cons.1 h
    exact append hx (ih hxs)

/-- An endpoint that is absent and one that is empty have no field, and count as no bytes. -/
theorem endpoint (number : UInt8) (hnumber : number.toNat < 16) {g : HugeField}
    (hcontext : contextOf? number.toNat = some g.describe) {o : Option Endpoint}
    (h : s.PartsFit → ∀ e ∈ o, e.isEmpty = false → e.size < 2 ^ 64) :
    Listed s threshold
      ((o.filter (!·.isEmpty)).map fun e => (number.toNat, endpointField number (some e))).toList
      (endpointField number o) (endpointFields number.toNat o) [(g, endpointFieldSize o)] := by
  cases o with
  | none => exact absent g
  | some e =>
    have hlen := length_endpointField number (some e)
    have hspells := fun hfit => spells_endpointField hnumber (h hfit)
    unfold endpointFields at hspells ⊢
    rw [Option.filter_some] at hspells ⊢
    cases he : e.isEmpty with
    | true =>
      rw [endpointField, endpointFieldSize, he]
      exact absent g
    | false =>
      rw [he] at hspells
      exact growing hcontext hlen hspells

end Listed

/-- The fields that may become huge, field by field along an encoding. -/
theorem Span.growingFields_eq (s : Span) : s.growingFields =
    [] ++ [] ++ [] ++ [] ++
    (match s.name with
      | none => []
      | some name => [(.name, textFieldSize name)]) ++
    [] ++ [] ++
    [(.localServiceName, endpointFieldSize s.localEndpoint)] ++
    [(.remoteServiceName, endpointFieldSize s.remoteEndpoint)] ++
    s.annotations.map (fun a => (.event, a.fieldSize)) ++
    s.tags.entries.map (fun e => (.tag, tagFieldSize e.1 e.2)) ++ [] ++ [] := by
  rw [growingFields]
  cases s.name <;> simp

/-- The fields of a span with their numbers are what is written for it and what is read from it, and
those of them that count for the warnings do so with the number of their bytes. -/
theorem Span.listed (s : Span) (threshold : Nat) :
    Listed s threshold s.fieldWrites s.writes s.fields s.growingFields := by
  rw [growingFields_eq, fieldWrites, writes, fields]
  iterate 12 refine .append ?_ ?_
  · exact .plain rfl fun _ => spells_idField (by decide) s.traceId.length_digits_lt
  · cases s.parentId with
    | none => exact .nil
    | some id => exact .plain rfl fun _ => spells_idField (by decide) id.length_digits_lt
  · exact .plain rfl fun _ => spells_idField (by decide) s.id.length_digits_lt
  · cases s.kind with
    | none => exact .nil
    | some kind => exact .plain rfl fun _ => spells_byte (by decide) (by cases kind <;> decide)
  · cases hname : s.name with
    | none => exact .nil
    | some name =>
      exact .growing rfl (length_textField 5 name) fun h =>
        spells_textField (by decide) (h.name name hname)
  · split
    · exact .nil
    · exact .plain rfl fun _ => spells_fixed64 (by decide) _
  · split
    · exact .nil
    · exact .plain rfl fun _ => spells_varint (by decide) _
  · exact .endpoint 8 (by decide) rfl PartsFit.localEndpoint
  · exact .endpoint 9 (by decide) rfl PartsFit.remoteEndpoint
  · exact .map fun a ha => .growing rfl (length_annotationField 10 a) fun h =>
      spells_annotationField (h.annotations a ha)
  · exact .map fun e he => .growing rfl (length_tagField 11 e.1 e.2) fun h =>
      spells_tagField (h.tags e he)
  · cases s.debug with
    | false => exact .nil
    | true => exact .plain rfl fun _ => spells_flagField (by decide) true
  · cases s.shared with
    | false => exact .nil
    | true => exact .plain rfl fun _ => spells_flagField (by decide) true

/-- The encoding of a span is that of its fields one after the other, and a reader finds them there;
the tags among them are in ascending order of the bytes of their keys. A listener to a size
computation is told of each field that takes more bytes than the threshold, in this order, and of
nothing else. Writing a span warns of nothing, and encoding it as one size computation does. -/
theorem Wire.Codec.perform_warnings (c : Codec) (s : Span) (out : Array UInt8) (pos : Nat) :
    s.encode.toList = (fieldBytes s.fieldWrites).flatMap Prod.snd ∧
    (s.size < 2 ^ 64 → ∃ fields, readFields s.encode.toList = some fields ∧
      fields.map (fun f => (f.number, f.bytes)) = fieldBytes s.fieldWrites) ∧
    (s.tags.entries.Pairwise fun d e => Text.utf8 d.1 < Text.utf8 e.1) ∧
    (c.perform out (.size s)).warnings.map Warning.message =
      (if c.listening then
        (fieldBytes s.fieldWrites).filterMap
          (s.complaint? c.settings.largeFieldThreshold.toNat)
      else []) ∧
    (c.perform out (.write s pos)).warnings = [] ∧
    (c.perform out (.encode s)).warnings = (c.perform out (.size s)).warnings := by
  have hlisted := s.listed c.settings.largeFieldThreshold.toNat
  have hencode : s.encode.toList = encodings s.writes := by rw [Span.encode_eq]
  refine ⟨?bytes, ?read, s.tags.ascending_utf8, ?size, rfl, rfl⟩
  case bytes => rw [hencode, flatMap_fieldBytes, hlisted.writes]
  case read =>
    intro hsize
    have hfit := s.partsFit hsize
    have hspells := Span.writes_spells hfit
    refine ⟨s.fields, ?_, hlisted.read hfit⟩
    rw [hencode, hspells.bytes, readFields_flatMap hspells.fits]
  case size =>
    change (c.warningsOf s).map Warning.message = _
    rw [Codec.warningsOf, hlisted.complaints]
    cases c.listening with
    | false => rfl
    | true =>
      simp only [if_true, Span.warnings, List.map_map]
      rfl

/-- Above eight bytes are an endpoint and an annotation; the tags take eight each. -/
theorem Wire.Codec.perform_warnings_sample :
    (∃ fields, readFields Span.sample.encode.toList = some fields ∧
      fields.map (fun f => (f.number, f.bytes)) = fieldBytes Span.sample.fieldWrites) ∧
    (perform ⟨⟨8⟩, true⟩ #[] (.size .sample)).warnings.map Warning.message =
      ["Span 0000000000000000000000000000000a/cccccccccccccccc includes a huge " ++
        "remote service name that will take 14 bytes to encode",
      "Span 0000000000000000000000000000000a/cccccccccccccccc includes a huge " ++
        "annotation that will take 15 bytes to encode"] := by
  obtain ⟨-, hread, -, hsize, -⟩ := perform_warnings ⟨⟨8⟩, true⟩ .sample #[] 0
  refine ⟨hread (by decide), ?_⟩
  rw [hsize]
  decide +kernel

end SpanWire
