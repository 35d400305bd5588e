import SpanWire.Proofs.Wire.Frames
import SpanWire.Proofs.Wire.Layout

/-!
Keys and lengths of what is written. A key holds its field's number and form without loss, and a
length is the number of bytes written behind it, in messages within messages, too.
-/
namespace SpanWire

namespace Wire

/-- A byte that holds the number of a field and the form of its value, with the high bit left
clear. -/
structure IsKey (key : UInt8) (number : Nat) (type : WireType) : Prop where
  number_lt : number < 16
  toNat_eq : key.toNat = 8 * number + type.code.toNat
  lt : key < 0x80

/-- Writes of whole fields in which keys and lengths are exact. -/
inductive ExactFields : List Write → Prop
  | nil : ExactFields []
  | number {key : UInt8} {number : Nat} {v : UInt64} : IsKey key number .varint →
    ExactFields [.byte key, .varint v]
  | small {key : UInt8} {number : Nat} {b : UInt8} : IsKey key number .varint → b < 0x80 →
    ExactFields [.byte key, .byte b]
  | fixed64 {key : UInt8} {number : Nat} {v : UInt64} : IsKey key number .fixed64 →
    ExactFields [.byte key, .fixed64 v]
  | text {key : UInt8} {number : Nat} {length : UInt64} {s : String} :
    IsKey key number .delimited → length.toNat = s.utf8ByteSize →
    ExactFields [.byte key, .varint length, .utf8 s]
  | bytes {key : UInt8} {number : Nat} {length : UInt64} {bs : List UInt8} :
    IsKey key number .delimited → length.toNat = bs.length →
    ExactFields [.byte key, .varint length, .bytes bs]
  | eachByte {key : UInt8} {number : Nat} {length : UInt8} {bs : List UInt8} :
    IsKey key number .delimited → length.toNat = bs.length →
    ExactFields ([.byte key, .byte length] ++ bs.map .byte)
  | message {key : UInt8} {number : Nat} {length : UInt64} {ws : List Write} :
    IsKey key number .delimited → length.toNat = (encodings ws).length → ExactFields ws →
    ExactFields ([.byte key, .varint length] ++ ws)
  | append {ws vs : List Write} : ExactFields ws → ExactFields vs → ExactFields (ws ++ vs)

theorem isKey_fieldKey {number : UInt8} (h : number.toNat < 16) (type : WireType) :
    IsKey (fieldKey number type) number.toNat type := by
  have hcode : type.code.toNat < 3 := by cases type <;> decide
  have hkey := fieldKey_eq h type
  rw [leb128_of_lt (by omega), List.singleton_inj] at hkey
  have hnat : (fieldKey number type).toNat = 8 * number.toNat + type.code.toNat := by
    rw [hkey, UInt8.toNat_ofNat', Nat.mod_eq_of_lt (by omega)]
  refine ⟨h, hnat, ?_⟩
  rw [UInt8.lt_iff_toNat_lt, hnat]
  change _ < 128
  omega

namespace ExactFields

variable {number : UInt8}

theorem flatMap {α : Type} {f : α → List Write} {xs : List α}
    (h : ∀ x ∈ xs, ExactFields (f x)) : ExactFields (xs.flatMap f) := by
  induction xs with
  | nil => exact nil
  | cons x xs ih =>
    obtain ⟨hx, hxs⟩ := List.forall_mem_cons.1 h
    exact append hx (ih hxs)

theorem textField (hnumber : number.toNat < 16) {s : String} (hs : s.utf8ByteSize < 2 ^ 64) :
    ExactFields (textField number s) :=
  text (isKey_fieldKey hnumber .delimited) (UInt64.toNat_ofNat_of_lt' hs)

theorem bytesField (hnumber : number.toNat < 16) {bs : List UInt8} (hbs : bs.length < 2 ^ 64) :
    ExactFields (bytesField number bs) :=
  bytes (isKey_fieldKey hnumber .delimited) (UInt64.toNat_ofNat_of_lt' hbs)

/-- Half the digits of an identifier are counted in one byte. -/
theorem idField (hnumber : number.toNat < 16) {digits : List Hex.Digit}
    (hdigits : digits.length < 256) : ExactFields (idField number digits) := by
  refine eachByte (isKey_fieldKey hnumber .delimited) ?_
  rw [Hex.length_toBytes, UInt8.toNat_ofNat', Nat.mod_eq_of_lt (by omega)]

theorem flagField (hnumber : number.toNat < 16) (flag : Bool) :
    ExactFields (flagField number flag) := by
  cases flag with
  | false => exact nil
  | true => exact small (isKey_fieldKey hnumber .varint) (by decide)

theorem delimited (hnumber : number.toNat < 16) {ws : List Write} {n : Nat}
    (hlength : (encodings ws).length = n) (hn : n < 2 ^ 64) (hws : ExactFields ws) :
    ExactFields ([.byte (fieldKey number .delimited), .varint (UInt64.ofNat n)] ++ ws) := by
  subst hlength
  exact message (isKey_fieldKey hnumber .delimited) (UInt64.toNat_ofNat_of_lt' hn) hws

end ExactFields

end Wire

open Wire

theorem Endpoint.exactFields {e : Endpoint} (h : e.size < 2 ^ 64) : ExactFields e.writes := by
  obtain ⟨name, ipv4, ipv6, port⟩ := e
  rw [writes]
  refine .append (.append (.append ?name ?ipv4) ?ipv6) ?port
  case name =>
    cases name with
    | none => exact .nil
    | some name =>
      simp only [size] at h
      exact .textField (by decide) (utf8ByteSize_lt (by omega))
  case ipv4 =>
    cases ipv4 with
    | none => exact .nil
    | some a => exact .bytesField (by decide) (by simp [a.length_eq])
  case ipv6 =>
    cases ipv6 with
    | none => exact .nil
    | some a => exact .bytesField (by decide) (by simp)
  case port =>
    cases port with
    | none => exact .nil
    | some port => exact .number (isKey_fieldKey (by decide) .varint)

theorem exactFields_endpoint {number : UInt8} (hnumber : number.toNat < 16) {o : Option Endpoint}
    (h : ∀ e ∈ o, e.isEmpty = false → e.size < 2 ^ 64) :
    ExactFields (endpointField number o) := by
  cases o with
  | none => exact .nil
  | some e =>
    rw [endpointField]
    cases he : e.isEmpty with
    | true => exact .nil
    | false =>
      have hsize := h e rfl he
      exact .delimited hnumber e.length_writes hsize (Endpoint.exactFields hsize)

theorem exactFields_annotation {a : Annotation} (h : a.size < 2 ^ 64) :
    ExactFields (annotationField 10 a) := by
  have hvalue : textFieldSize a.value < 2 ^ 64 := Nat.lt_of_le_of_lt (Nat.le_add_left ..) h
  refine .delimited (by decide) a.length_writes h (.append ?_ ?_)
  · exact .fixed64 (isKey_fieldKey (by decide) .fixed64)
  · exact .textField (by decide) (utf8ByteSize_lt hvalue)

theorem exactFields_tag {key value : String} (h : tagSize key value < 2 ^ 64) :
    ExactFields (tagField 11 key value) := by
  have hkey : textFieldSize key < 2 ^ 64 := Nat.lt_of_le_of_lt (Nat.le_add_right ..) h
  have hvalue : textFieldSize value < 2 ^ 64 := Nat.lt_of_le_of_lt (Nat.le_add_left ..) h
  rw [tagField, List.append_assoc]
  refine .delimited (by decide) ?_ h (.append ?_ ?_)
  · rw [encodings_append, List.length_append, length_textField, length_textField, tagSize]
  · exact .textField (by decide) (utf8ByteSize_lt hkey)
  · exact .textField (by decide) (utf8ByteSize_lt hvalue)

/-- Keys and lengths of a span are exact, as long as lengths have 64 bits. -/
theorem Span.exactFields {s : Span} (h : s.PartsFit) : ExactFields s.writes := by
  rw [writes]
  iterate 12 refine .append ?_ ?_
  · exact .idField (by decide) s.traceId.length_digits_lt
  · cases s.parentId with
    | none => exact .nil
    | some id => exact .idField (by decide) id.length_digits_lt
  · exact .idField (by decide) s.id.length_digits_lt
  · cases s.kind with
    | none => exact .nil
    | some kind =>
      exact .small (isKey_fieldKey (by decide) .varint) (by cases kind <;> decide)
  · cases hname : s.name with
    | none => exact .nil
    | some name => exact .textField (by decide) (h.name name hname)
  · split
    · exact .nil
    · exact .fixed64 (isKey_fieldKey (by decide) .fixed64)
  · split
    · exact .nil
    · exact .number (isKey_fieldKey (by decide) .varint)
  · exact exactFields_endpoint (by decide) h.localEndpoint
  · exact exactFields_endpoint (by decide) h.remoteEndpoint
  · exact .flatMap fun a ha => exactFields_annotation (h.annotations a ha)
  · exact .flatMap fun e he => exactFields_tag (h.tags e he)
  · exact .flagField (by decide) _
  · exact .flagField (by decide) _

theorem exactFields_frames {spans : List Span} (h : ∀ s ∈ spans, s.size < 2 ^ 64) :
    ExactFields (spans.flatMap Span.frameWrites) := by
  refine .flatMap fun s hs => ?_
  have hsize := h s hs
  exact .delimited (by decide) s.length_writes hsize (Span.exactFields (Span.partsFit hsize))

end SpanWire
