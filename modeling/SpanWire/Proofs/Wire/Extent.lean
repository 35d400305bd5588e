import SpanWire.Proofs.Wire.Size

/-!
What a span takes up in a buffer: it fits exactly when its size does, and what is stored depends
neither on the buffer nor on the position.
-/
namespace SpanWire

open Wire

namespace Wire

/-- The field of an identifier, read off its text; a character that is no digit is refused. -/
def idFieldOfText? (number : UInt8) (text : String) : Option (List Write) :=
  (Hex.decodePairs? text.toList).map fun bytes =>
    [.byte (fieldKey number .delimited), .byte (UInt8.ofNat (text.utf8ByteSize / 2))] ++
      bytes.map .byte

theorem idFieldOfText?_spell (number : UInt8) (digits : List Hex.Digit) :
    idFieldOfText? number (Hex.spell digits) = some (idField number digits) := by
  rw [idFieldOfText?, Hex.toList_spell, Hex.decodePairs?_map_toChar, Hex.utf8ByteSize_spell]
  rfl

end Wire

namespace Span

/-- What is written for the identifier of the parent, if there is one. -/
def parentWrites (s : Span) : List Write :=
  match s.parentId with
  | none => []
  | some id => idField 2 id.digits

/-- The identifiers are written first. -/
theorem exists_writes (s : Span) : ∃ rest, s.writes =
    idField 1 s.traceId.digits ++ (s.parentWrites ++ (idField 3 s.id.digits ++ rest)) := by
  simp only [writes, List.append_assoc]
  exact ⟨_, rfl⟩

theorem writes_ne_nil (s : Span) : s.writes ≠ [] := by
  simp [writes, idField]

theorem write_eq_done_iff {s : Span} {b b' : Buffer} :
    s.write b = .done b' ↔ b.Fits s.size ∧ b' = b.stored (encodings s.writes) := by
  rw [write, Buffer.putAll_eq_done_iff s.writes_ne_nil, length_writes]

theorem encode_eq (s : Span) : s.encode = (encodings s.writes).toArray := by
  rw [encode, write, Buffer.putAll_zeros s.length_writes]
  rfl

theorem size_encode (s : Span) : s.encode.size = s.size := by
  rw [encode_eq, List.size_toArray, length_writes]

theorem write_zeros (s : Span) : s.write (.zeros s.size) = .done ⟨s.encode, s.size⟩ := by
  rw [write, Buffer.putAll_zeros s.length_writes, encode_eq]

/-- A span is written exactly when its size has room behind the position. Its encoding is then
stored there, and nothing else of the buffer changes. A buffer of its size is filled, and no
character of its identifiers is anything but a digit. -/
theorem write_extent (s : Span) (out : Array UInt8) (pos : Nat) :
    ((s.write ⟨out, pos⟩).isOverrun = false ↔ pos + s.size ≤ out.size) ∧
    (∀ b, s.write ⟨out, pos⟩ = .done b →
      b.pos = pos + s.size ∧ b.bytes.size = out.size ∧
      b.bytes.extract pos (pos + s.size) = s.encode ∧
      ∀ i, i < pos ∨ pos + s.size ≤ i → b.bytes[i]? = out[i]?) ∧
    s.write (.zeros s.size) = .done ⟨s.encode, s.size⟩ ∧
    idFieldOfText? 1 (toString s.traceId) = some (idField 1 s.traceId.digits) ∧
    (∀ id ∈ s.parentId, idFieldOfText? 2 (toString id) = some (idField 2 id.digits)) ∧
    idFieldOfText? 3 (toString s.id) = some (idField 3 s.id.digits) := by
  refine ⟨?fits, ?stored, s.write_zeros, idFieldOfText?_spell 1 _,
    fun id _ => idFieldOfText?_spell 2 id.digits, idFieldOfText?_spell 3 _⟩
  case fits =>
    change _ ↔ (Buffer.mk out pos).Fits s.size
    cases hw : s.write ⟨out, pos⟩ with
    | done b => exact ⟨fun _ => (write_eq_done_iff.1 hw).1, fun _ => rfl⟩
    | overrun b =>
      refine ⟨nofun, fun hfits => ?_⟩
      rw [write_eq_done_iff.2 ⟨hfits, rfl⟩] at hw
      contradiction
  case stored =>
    intro b hw
    obtain ⟨hfits, rfl⟩ := write_eq_done_iff.1 hw
    have hlen : (encodings s.writes).length = s.size := s.length_writes
    rw [encode_eq]
    generalize encodings s.writes = bs at hlen
    rw [← hlen] at hfits ⊢
    refine ⟨rfl, Buffer.size_stored .., ?_, fun i hi => Buffer.getElem?_store_of_outside hi⟩
    rw [← Array.toList_inj]
    exact Buffer.extract_store hfits

/-- A span that is written into the middle of a buffer of ones. -/
theorem write_extent_sample :
    ∃ b, sample.write ⟨Array.replicate 200 1, 5⟩ = .done b ∧ b.pos = 111 ∧
      b.bytes.size = 200 ∧ b.bytes.extract 5 111 = sample.encode ∧
      ∀ i, i < 5 ∨ 111 ≤ i → b.bytes[i]? = (Array.replicate 200 1)[i]? := by
  have hsize : sample.size = 106 := by decide
  have hfits : (Buffer.mk (Array.replicate 200 1) 5).Fits sample.size := by
    rw [hsize, Buffer.Fits, Array.size_replicate]
    decide
  have hw := write_eq_done_iff.2 ⟨hfits, rfl⟩
  have h := (write_extent sample (Array.replicate 200 1) 5).2.1 _ hw
  rw [hsize, Array.size_replicate] at h
  exact ⟨_, hw, h⟩

end Span

end SpanWire
