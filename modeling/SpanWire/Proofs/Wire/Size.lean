import SpanWire.Proofs.Hex
import SpanWire.Proofs.Wire.Buffer
import SpanWire.Wire.Encode

/-! Computed sizes are the sizes of what is written. -/
namespace SpanWire

open Wire

@[simp] theorem IPv6.length_octets (a : IPv6) : a.octets.length = 16 := by
  have h : ∀ gs : List UInt16, (gs.flatMap bytesOfGroup).length = 2 * gs.length := by
    intro gs
    induction gs with
    | nil => rfl
    | cons g gs ih =>
      rw [List.flatMap_cons, List.length_append, ih, List.length_cons]
      change 2 + _ = _
      omega
  rw [IPv6.octets, h, a.length_eq]

namespace Wire

@[simp] theorem encodings_map_byte (bs : List UInt8) : encodings (bs.map .byte) = bs := by
  induction bs with
  | nil => rfl
  | cons b bs ih => simp [ih, Write.encoding]

@[simp] theorem length_encoding_byte (b : UInt8) : (Write.byte b).encoding.length = 1 := rfl

@[simp] theorem length_encoding_bytes (bs : List UInt8) :
    (Write.bytes bs).encoding.length = bs.length := rfl

@[simp] theorem length_encoding_varint (v : UInt64) :
    (Write.varint v).encoding.length = varintSize v := length_varint v

@[simp] theorem length_encoding_utf8 (s : String) :
    (Write.utf8 s).encoding.length = s.utf8ByteSize := rfl

@[simp] theorem length_textField (number : UInt8) (s : String) :
    (encodings (textField number s)).length = textFieldSize s := by
  simp [textField, textFieldSize, delimitedFieldSize]
  omega

@[simp] theorem length_idField (number : UInt8) (digits : List Hex.Digit) :
    (encodings (idField number digits)).length = 2 + digits.length / 2 := by
  simp [idField, Hex.length_toBytes]
  omega

@[simp] theorem length_bytesField {number : UInt8} {bs : List UInt8} :
    (encodings (bytesField number bs)).length = delimitedFieldSize bs.length := by
  simp [bytesField, delimitedFieldSize]
  omega

@[simp] theorem length_flagField (number : UInt8) (flag : Bool) :
    (encodings (flagField number flag)).length = if flag then 2 else 0 := by
  cases flag <;> rfl

end Wire

/-- Sizes are added up in the order in which the parts are written. -/
private theorem length_both {ws vs : List Write} {m n : Nat} (hm : (encodings ws).length = m)
    (hn : (encodings vs).length = n) : (encodings (ws ++ vs)).length = m + n := by
  rw [encodings_append, List.length_append, hm, hn]

theorem Endpoint.length_writes (e : Endpoint) : (encodings e.writes).length = e.size := by
  have hfour : delimitedFieldSize 4 = 6 := by decide
  have hsixteen : delimitedFieldSize 16 = 18 := by decide
  rw [writes, size]
  refine length_both (length_both (length_both ?name ?ipv4) ?ipv6) ?port
  case name =>
    cases e.serviceName with
    | none => rfl
    | some name => exact length_textField 1 name
  case ipv4 =>
    cases e.ipv4 with
    | none => rfl
    | some a => simp [a.length_eq, hfour]
  case ipv6 =>
    cases e.ipv6 with
    | none => rfl
    | some a => simp [hsixteen]
  case port =>
    cases e.port with
    | none => rfl
    | some port => simp

theorem length_delimited (number : UInt8) (n : Nat) (ws : List Write)
    (h : (encodings ws).length = n) :
    (encodings ([.byte (fieldKey number .delimited), .varint (UInt64.ofNat n)] ++ ws)).length =
      delimitedFieldSize n := by
  simp [h, delimitedFieldSize]
  omega

theorem length_endpointField (number : UInt8) (e : Option Endpoint) :
    (encodings (endpointField number e)).length = endpointFieldSize e := by
  cases e with
  | none => rfl
  | some e =>
    rw [endpointField, endpointFieldSize]
    split
    · rfl
    · exact length_delimited number _ _ e.length_writes

theorem Annotation.length_writes (a : Annotation) : (encodings a.writes).length = a.size :=
  length_both rfl (length_textField 2 a.value)

theorem length_annotationField (number : UInt8) (a : Annotation) :
    (encodings (annotationField number a)).length = a.fieldSize :=
  length_delimited number _ _ a.length_writes

theorem length_tagField (number : UInt8) (key value : String) :
    (encodings (tagField number key value)).length = tagFieldSize key value := by
  rw [tagField, List.append_assoc]
  exact length_delimited number _ _
    (length_both (length_textField 1 key) (length_textField 2 value))

theorem length_flatMap {α : Type} {f : α → List Write} {size : α → Nat}
    (h : ∀ x, (encodings (f x)).length = size x) (xs : List α) :
    (encodings (xs.flatMap f)).length = total (xs.map size) := by
  induction xs with
  | nil => rfl
  | cons x xs ih => exact length_both (h x) ih

/-- The bytes of a field are more than the bytes it holds. -/
theorem lt_delimitedFieldSize (n : Nat) : n < delimitedFieldSize n := by
  rw [delimitedFieldSize]
  omega

theorem utf8ByteSize_lt {s : String} {limit : Nat} (h : textFieldSize s < limit) :
    s.utf8ByteSize < limit :=
  Nat.lt_trans (lt_delimitedFieldSize _) h

theorem le_total_of_mem {n : Nat} {ns : List Nat} (h : n ∈ ns) : n ≤ total ns := by
  induction ns with
  | nil => contradiction
  | cons m ns ih =>
    have hcons : total (m :: ns) = m + total ns := rfl
    rcases List.mem_cons.1 h with rfl | h
    · omega
    · have hle := ih h
      omega

/-- The size of a span is the number of bytes that are written for it. -/
theorem Span.length_writes (s : Span) : (encodings s.writes).length = s.size := by
  rw [writes, size]
  iterate 12 refine length_both ?_ ?_
  · exact length_idField 1 _
  · cases s.parentId with
    | none => rfl
    | some id => simp [id.width]
  · simp [s.id.width]
  · cases s.kind <;> rfl
  · cases s.name with
    | none => rfl
    | some name => exact length_textField 5 name
  · split <;> rfl
  · split
    · rfl
    · simp
  · exact length_endpointField 8 _
  · exact length_endpointField 9 _
  · exact length_flatMap (length_annotationField 10) _
  · refine length_flatMap (fun e => ?_) _
    exact length_tagField 11 e.1 e.2
  · exact length_flagField 12 _
  · exact length_flagField 13 _

/-- A span with every part, to which the general results are applied. -/
def Span.sample : Span where
  traceId := ⟨Hex.ofBytes (List.replicate 15 0 ++ [0x0a]), by decide, by decide⟩
  parentId := some ⟨Hex.ofBytes (List.replicate 8 0xbb), by decide, by decide⟩
  id := ⟨Hex.ofBytes (List.replicate 8 0xcc), by decide, by decide⟩
  kind := some .server
  name := some "get /"
  timestamp := 1472470996199000
  duration := 300
  localEndpoint := some .empty
  remoteEndpoint := some {
    serviceName := some "db"
    ipv4 := some ⟨[127, 0, 0, 1], rfl⟩
    port := some 80 }
  annotations := [⟨1472470996238000, "ws"⟩]
  tags := ⟨[("a", "1"), ("b", "2")], by decide⟩
  debug := true

example : Span.sample.size = 106 := by decide

end SpanWire
