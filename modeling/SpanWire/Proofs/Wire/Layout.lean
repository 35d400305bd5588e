import SpanWire.Proofs.Wire.Extent
import SpanWire.Proofs.Wire.Field

/-! Which fields an encoded span consists of, and that its writes spell these fields. -/
namespace SpanWire

open Wire

namespace Wire

def optionalField {α : Type} (number : Nat) (payload : α → Payload) :
    Option α → List WireField
  | none => []
  | some a => [⟨number, payload a⟩]

def textPayload (s : String) : Payload :=
  .delimited (Text.utf8 s)

/-- A message within a message stands there as its bytes. -/
def messagePayload (fields : List WireField) : Payload :=
  .delimited (fields.flatMap WireField.bytes)

end Wire

def Endpoint.fields (e : Endpoint) : List WireField :=
  optionalField 1 textPayload e.serviceName ++
  optionalField 2 (fun a => .delimited a.octets) e.ipv4 ++
  optionalField 3 (fun a => .delimited a.octets) e.ipv6 ++
  optionalField 4 (fun port => .varint port.toUInt64) e.port

/-- The field of an endpoint, unless it is empty. -/
def endpointFields (number : Nat) (e : Option Endpoint) : List WireField :=
  optionalField number (fun e => messagePayload e.fields) (e.filter (!·.isEmpty))

def Annotation.fields (a : Annotation) : List WireField :=
  [⟨1, .fixed64 a.timestamp⟩, ⟨2, textPayload a.value⟩]

def tagFields (key value : String) : List WireField :=
  [⟨1, textPayload key⟩, ⟨2, textPayload value⟩]

/-- The fields of a span in the order of its encoding. -/
def Span.fields (s : Span) : List WireField :=
  [⟨1, .delimited s.traceId.toBytes⟩] ++
  optionalField 2 (fun id => .delimited id.toBytes) s.parentId ++
  [⟨3, .delimited s.id.toBytes⟩] ++
  optionalField 4 (fun kind => .varint kind.wireValue.toUInt64) s.kind ++
  optionalField 5 textPayload s.name ++
  (if s.timestamp = 0 then [] else [⟨6, .fixed64 s.timestamp⟩]) ++
  (if s.duration = 0 then [] else [⟨7, .varint s.duration⟩]) ++
  endpointFields 8 s.localEndpoint ++
  endpointFields 9 s.remoteEndpoint ++
  s.annotations.map (fun a => ⟨10, messagePayload a.fields⟩) ++
  s.tags.entries.map (fun e => ⟨11, messagePayload (tagFields e.1 e.2)⟩) ++
  (if s.debug then [⟨12, .varint 1⟩] else []) ++
  (if s.shared then [⟨13, .varint 1⟩] else [])

namespace Wire

/-- Writes whose bytes are those of fields that can be read back. -/
structure Spells (ws : List Write) (fs : List WireField) : Prop where
  bytes : encodings ws = fs.flatMap WireField.bytes
  fits : ∀ f ∈ fs, f.Fits

namespace Spells

theorem nil : Spells [] [] :=
  ⟨rfl, nofun⟩

theorem append {ws vs : List Write} {fs gs : List WireField} (hf : Spells ws fs)
    (hg : Spells vs gs) : Spells (ws ++ vs) (fs ++ gs) where
  bytes := by rw [encodings_append, hf.bytes, hg.bytes, List.flatMap_append]
  fits f h := (List.mem_append.1 h).elim (hf.fits f) (hg.fits f)

theorem single {ws : List Write} {f : WireField} (hbytes : encodings ws = f.bytes)
    (hfits : f.Fits) : Spells ws [f] where
  bytes := by rw [hbytes, List.flatMap_singleton]
  fits g h := List.mem_singleton.1 h ▸ hfits

theorem flatMap {α : Type} {f : α → List Write} {g : α → WireField} {xs : List α}
    (h : ∀ x ∈ xs, Spells (f x) [g x]) : Spells (xs.flatMap f) (xs.map g) := by
  induction xs with
  | nil => exact nil
  | cons x xs ih =>
    obtain ⟨hx, hxs⟩ := List.forall_mem_cons.1 h
    exact append hx (ih hxs)

end Spells

/-- A key with a number below 16 takes one byte. -/
theorem fieldKey_eq {number : UInt8} (h : number.toNat < 16) (type : WireType) :
    [fieldKey number type] = leb128 (8 * number.toNat + type.code.toNat) := by
  have hall : ∀ i : Fin 16, ∀ type : WireType,
      fieldKey (UInt8.ofNat i) type = UInt8.ofNat (8 * i + type.code.toNat) := by
    intro i type
    cases type <;> revert i <;> decide
  have hcode : type.code.toNat < 3 := by cases type <;> decide
  rw [leb128_of_lt (by omega), ← hall ⟨number.toNat, h⟩ type, UInt8.ofNat_toNat]

theorem fixed64_eq (v : UInt64) : fixed64 v = toLittleEndian 8 v.toNat := by
  simp only [fixed64, toLittleEndian, List.cons.injEq, and_true, ← UInt8.toNat_inj,
    UInt8.toNat_ofNat', UInt64.toNat_toUInt8, UInt64.toNat_shiftRight, Nat.shiftRight_eq_div_pow]
  simp [Nat.div_div_eq_div_mul]

/-- A length and as many bytes behind a key spell one field. -/
theorem spells_delimited {number : UInt8} (hnumber : number.toNat < 16) {ws : List Write}
    {bs : List UInt8} {n : Nat} (hbytes : encodings ws = bs) (hlen : bs.length = n)
    (hn : n < 2 ^ 64) :
    Spells ([.byte (fieldKey number .delimited), .varint (UInt64.ofNat n)] ++ ws)
      [⟨number.toNat, .delimited bs⟩] := by
  subst hlen
  have hkey : [fieldKey number .delimited] = leb128 (8 * number.toNat + 2) :=
    fieldKey_eq hnumber .delimited
  refine .single ?_ ⟨by omega, hn⟩
  rw [encodings_append, hbytes, WireField.bytes, ← hkey, ← varint_ofNat hn]
  simp [Write.encoding]

theorem spells_textField {number : UInt8} (hnumber : number.toNat < 16) {s : String}
    (hn : s.utf8ByteSize < 2 ^ 64) :
    Spells (textField number s) [⟨number.toNat, textPayload s⟩] :=
  spells_delimited hnumber (List.append_nil _) rfl hn

theorem spells_bytesField {number : UInt8} (hnumber : number.toNat < 16) {bs : List UInt8}
    (hn : bs.length < 2 ^ 64) :
    Spells (bytesField number bs) [⟨number.toNat, .delimited bs⟩] :=
  spells_delimited hnumber (List.append_nil _) rfl hn

/-- The count of an identifier's bytes needs one byte only. -/
theorem spells_idField {number : UInt8} (hnumber : number.toNat < 16) {digits : List Hex.Digit}
    (hn : digits.length < 256) :
    Spells (idField number digits) [⟨number.toNat, .delimited (Hex.toBytes digits)⟩] := by
  have hlen := Hex.length_toBytes digits
  have hkey : [fieldKey number .delimited] = leb128 (8 * number.toNat + 2) :=
    fieldKey_eq hnumber .delimited
  refine .single ?_ ⟨by omega, by omega⟩
  rw [idField, encodings_append, encodings_map_byte, WireField.bytes, ← hkey,
    leb128_of_lt (by omega), hlen]
  simp [Write.encoding]

theorem spells_varint {number : UInt8} (hnumber : number.toNat < 16) (v : UInt64) :
    Spells [.byte (fieldKey number .varint), .varint v] [⟨number.toNat, .varint v⟩] := by
  have hkey : [fieldKey number .varint] = leb128 (8 * number.toNat) := fieldKey_eq hnumber .varint
  refine .single ?_ (by change number.toNat < 2 ^ 29; omega)
  rw [WireField.bytes, ← hkey, ← varint_eq_leb128]
  simp [Write.encoding]

/-- A number below 128 may stand there as one byte. -/
theorem spells_byte {number : UInt8} (hnumber : number.toNat < 16) {b : UInt8}
    (hb : b.toNat < 128) :
    Spells [.byte (fieldKey number .varint), .byte b] [⟨number.toNat, .varint b.toUInt64⟩] := by
  have hvarint : varint b.toUInt64 = [b] := by
    rw [varint_eq_leb128, UInt8.toNat_toUInt64, leb128_of_lt hb, UInt8.ofNat_toNat]
  have h := spells_varint hnumber b.toUInt64
  refine ⟨?_, h.fits⟩
  rw [← h.bytes]
  simp [Write.encoding, hvarint]

theorem spells_fixed64 {number : UInt8} (hnumber : number.toNat < 16) (v : UInt64) :
    Spells [.byte (fieldKey number .fixed64), .fixed64 v] [⟨number.toNat, .fixed64 v⟩] := by
  have hkey : [fieldKey number .fixed64] = leb128 (8 * number.toNat + 1) :=
    fieldKey_eq hnumber .fixed64
  refine .single ?_ (by change number.toNat < 2 ^ 29; omega)
  rw [WireField.bytes, ← hkey, ← fixed64_eq]
  simp [Write.encoding]

theorem spells_flagField {number : UInt8} (hnumber : number.toNat < 16) (flag : Bool) :
    Spells (flagField number flag) (if flag then [⟨number.toNat, .varint 1⟩] else []) := by
  cases flag with
  | false => exact .nil
  | true => exact spells_byte hnumber (by decide)

theorem spells_message {number : UInt8} (hnumber : number.toNat < 16) {ws : List Write}
    {fs : List WireField} {n : Nat} (h : Spells ws fs) (hlen : (encodings ws).length = n)
    (hn : n < 2 ^ 64) :
    Spells ([.byte (fieldKey number .delimited), .varint (UInt64.ofNat n)] ++ ws)
      [⟨number.toNat, messagePayload fs⟩] :=
  spells_delimited hnumber h.bytes (h.bytes ▸ hlen) hn

end Wire

theorem Endpoint.writes_spells {e : Endpoint} (h : e.size < 2 ^ 64) : Spells e.writes e.fields := by
  obtain ⟨name, ipv4, ipv6, port⟩ := e
  rw [writes, fields]
  refine .append (.append (.append ?name ?ipv4) ?ipv6) ?port
  case name =>
    cases name with
    | none => exact .nil
    | some name =>
      simp only [size] at h
      exact spells_textField (by decide) (utf8ByteSize_lt (by omega))
  case ipv4 =>
    cases ipv4 with
    | none => exact .nil
    | some a => exact spells_bytesField (by decide) (by simp [a.length_eq])
  case ipv6 =>
    cases ipv6 with
    | none => exact .nil
    | some a => exact spells_bytesField (by decide) (by simp)
  case port =>
    cases port with
    | none => exact .nil
    | some port => exact spells_varint (by decide) _

theorem spells_endpointField {number : UInt8} (hnumber : number.toNat < 16) {o : Option Endpoint}
    (h : ∀ e ∈ o, e.isEmpty = false → e.size < 2 ^ 64) :
    Spells (endpointField number o) (endpointFields number.toNat o) := by
  cases o with
  | none => exact .nil
  | some e =>
    rw [endpointField, endpointFields, Option.filter_some]
    cases he : e.isEmpty with
    | true => exact .nil
    | false =>
      have hsize := h e rfl he
      exact spells_message hnumber (Endpoint.writes_spells hsize) e.length_writes hsize

theorem Annotation.writes_spells {a : Annotation} (h : a.size < 2 ^ 64) :
    Spells a.writes a.fields := by
  have hvalue : textFieldSize a.value < 2 ^ 64 := Nat.lt_of_le_of_lt (Nat.le_add_left ..) h
  refine .append (spells_fixed64 (by decide) _) ?_
  exact spells_textField (by decide) (utf8ByteSize_lt hvalue)

theorem writes_spells_tag {key value : String} (h : tagSize key value < 2 ^ 64) :
    Spells (textField 1 key ++ textField 2 value) (tagFields key value) := by
  have hkey : textFieldSize key < 2 ^ 64 := Nat.lt_of_le_of_lt (Nat.le_add_right ..) h
  have hvalue : textFieldSize value < 2 ^ 64 := Nat.lt_of_le_of_lt (Nat.le_add_left ..) h
  exact .append (spells_textField (by decide) (utf8ByteSize_lt hkey))
    (spells_textField (by decide) (utf8ByteSize_lt hvalue))

theorem spells_annotationField {a : Annotation} (h : a.size < 2 ^ 64) :
    Spells (annotationField 10 a) [⟨10, messagePayload a.fields⟩] := by
  have hwrites := Annotation.writes_spells h
  exact spells_message (by decide) hwrites a.length_writes h

theorem spells_tagField {key value : String} (h : tagSize key value < 2 ^ 64) :
    Spells (tagField 11 key value) [⟨11, messagePayload (tagFields key value)⟩] := by
  rw [tagField, List.append_assoc]
  refine spells_message (by decide) (writes_spells_tag h) ?_ h
  rw [encodings_append, List.length_append, length_textField, length_textField, tagSize]

/-- Every length within the encoding has 64 bits. -/
structure Span.PartsFit (s : Span) : Prop where
  name : ∀ name ∈ s.name, name.utf8ByteSize < 2 ^ 64
  localEndpoint : ∀ e ∈ s.localEndpoint, e.isEmpty = false → e.size < 2 ^ 64
  remoteEndpoint : ∀ e ∈ s.remoteEndpoint, e.isEmpty = false → e.size < 2 ^ 64
  annotations : ∀ a ∈ s.annotations, a.size < 2 ^ 64
  tags : ∀ e ∈ s.tags.entries, tagSize e.1 e.2 < 2 ^ 64

private theorem endpoint_size_lt {o : Option Endpoint} (h : endpointFieldSize o < 2 ^ 64) :
    ∀ e ∈ o, e.isEmpty = false → e.size < 2 ^ 64 := by
  rintro e rfl he
  have := lt_delimitedFieldSize e.size
  rw [endpointFieldSize, he, if_neg Bool.false_ne_true] at h
  omega

theorem Span.partsFit {s : Span} (h : s.size < 2 ^ 64) : s.PartsFit := by
  rw [size] at h
  refine ⟨?name, endpoint_size_lt (by omega), endpoint_size_lt (by omega), ?annotations, ?tags⟩
  case name =>
    intro name hname
    simp only [Option.mem_def.1 hname] at h
    exact utf8ByteSize_lt (by omega)
  case annotations =>
    intro a ha
    have := le_total_of_mem (List.mem_map_of_mem (f := Annotation.fieldSize) ha)
    exact Nat.lt_trans (lt_delimitedFieldSize _) (Nat.lt_of_le_of_lt this (by omega))
  case tags =>
    intro e he
    have := le_total_of_mem (List.mem_map_of_mem (f := fun e => tagFieldSize e.1 e.2) he)
    exact Nat.lt_trans (lt_delimitedFieldSize _) (Nat.lt_of_le_of_lt this (by omega))

theorem TraceId.length_digits_lt (id : TraceId) : id.digits.length < 256 := by
  have := id.width
  omega

theorem SpanId.length_digits_lt (id : SpanId) : id.digits.length < 256 := by
  have := id.width
  omega

/-- The writes of a span spell its fields, as long as lengths have 64 bits. -/
theorem Span.writes_spells {s : Span} (h : s.PartsFit) : Spells s.writes s.fields := by
  rw [writes, fields]
  iterate 12 refine .append ?_ ?_
  · exact spells_idField (by decide) s.traceId.length_digits_lt
  · cases s.parentId with
    | none => exact .nil
    | some id => exact spells_idField (by decide) id.length_digits_lt
  · exact spells_idField (by decide) s.id.length_digits_lt
  · cases s.kind with
    | none => exact .nil
    | some kind => exact spells_byte (by decide) (by cases kind <;> decide)
  · cases hname : s.name with
    | none => exact .nil
    | some name => exact spells_textField (by decide) (h.name name hname)
  · split
    · exact .nil
    · exact spells_fixed64 (by decide) _
  · split
    · exact .nil
    · exact spells_varint (by decide) _
  · exact spells_endpointField (by decide) h.localEndpoint
  · exact spells_endpointField (by decide) h.remoteEndpoint
  · exact .flatMap fun a ha => spells_annotationField (h.annotations a ha)
  · exact .flatMap fun e he => spells_tagField (h.tags e he)
  · exact spells_flagField (by decide) _
  · exact spells_flagField (by decide) _

end SpanWire
