import SpanWire.Proofs.Wire.Codec

/-!
What is left behind by writes that run over the end of their buffer: the first of their bytes and
nothing else, among them those of every write that had room.
-/
namespace SpanWire

open Wire

namespace Wire.Buffer

/-- An interrupted store of bytes left the buffer with the first of them. -/
structure Kept (b : Buffer) (bs kept : List UInt8) (b' : Buffer) : Prop where
  start : kept <+: bs
  room : kept = [] ∨ b.Fits kept.length
  buffer : b' = b.stored kept

/-- The second array has the first of the bytes from the position on, as far as it goes, but not all
of them, and nothing else is changed. -/
structure CutOff (bytes : Array UInt8) (pos : Nat) (bs kept : List UInt8) (bytes' : Array UInt8) :
    Prop where
  start : kept <+: bs
  proper : kept ≠ bs
  stored : StoredAt bytes pos kept bytes'
  within : pos ≤ bytes.size → pos + kept.length ≤ bytes.size
  behind : bytes.size ≤ pos → kept = []

namespace Kept

variable {b b' : Buffer} {xs bs kept : List UInt8}

theorem none (b : Buffer) (bs : List UInt8) : b.Kept bs [] b :=
  ⟨List.nil_prefix, .inl rfl, rfl⟩

/-- Bytes that were stored before stay. -/
theorem append (hfits : b.Fits xs.length) (h : (b.stored xs).Kept bs kept b') :
    b.Kept (xs ++ bs) (xs ++ kept) b' where
  start := (List.prefix_append_right_inj xs).2 h.start
  room := by
    rcases h.room with rfl | hroom
    · rw [List.append_nil]
      exact .inr hfits
    · rw [List.length_append]
      exact .inr ((fits_stored ..).1 hroom)
  buffer := h.buffer.trans (stored_append ..).symm

theorem of_start (h : b.Kept bs kept b') (rest : List UInt8) : b.Kept (bs ++ rest) kept b' :=
  ⟨h.start.trans (List.prefix_append bs rest), h.room, h.buffer⟩

theorem storedAt (h : b.Kept bs kept b') : StoredAt b.bytes b.pos kept b'.bytes := by
  rw [h.buffer]
  rcases h.room with rfl | hroom
  · exact ⟨rfl, by simp, fun _ _ => rfl⟩
  · exact storedAt_stored hroom

theorem cutOff (h : b.Kept bs kept b') (hne : bs ≠ []) (hfits : ¬ b.Fits bs.length) :
    CutOff b.bytes b.pos bs kept b'.bytes where
  start := h.start
  proper heq := by
    subst heq
    exact h.room.elim hne hfits
  stored := h.storedAt
  within hpos := by
    rcases h.room with rfl | hroom
    · exact hpos
    · exact hroom
  behind hpos := by
    rcases h.room with rfl | hroom
    · rfl
    · rw [Fits] at hroom
      exact List.length_eq_zero_iff.1 (by omega)

end Kept

/-- Bytes that are stored one at a time are kept up to the one without room. -/
theorem putEach_eq_overrun {b b' : Buffer} {bs : List UInt8} (h : b.putEach bs = .overrun b') :
    ∃ kept, b.Kept bs kept b' := by
  induction bs generalizing b with
  | nil => contradiction
  | cons x xs ih =>
    rw [putEach] at h
    split at h
    · next hpos =>
      obtain ⟨kept, hkept⟩ := ih (b := b.stored [x]) h
      have hone : b.Fits [x].length := hpos
      exact ⟨[x] ++ kept, .append hone hkept⟩
    · obtain rfl := Put.overrun.inj h
      exact ⟨[], .none b _⟩

theorem putWhole_eq_overrun {b b' : Buffer} {bs : List UInt8} (h : b.putWhole bs = .overrun b') :
    ∃ kept, b.Kept bs kept b' := by
  rw [putWhole] at h
  split at h
  · contradiction
  · obtain rfl := Put.overrun.inj h
    exact ⟨[], .none b bs⟩

theorem put_eq_overrun {b b' : Buffer} {w : Write} (h : b.put w = .overrun b') :
    ∃ kept, b.Kept w.encoding kept b' := by
  cases w with
  | byte x => exact putEach_eq_overrun h
  | varint v => exact putEach_eq_overrun h
  | bytes bs => exact putWhole_eq_overrun h
  | fixed64 v => exact putWhole_eq_overrun h
  | utf8 s => exact putWhole_eq_overrun h

/-- Of several writes all that have room are kept, and of the next one what it leaves. -/
theorem putAll_eq_overrun {b b' : Buffer} {ws : List Write} (h : b.putAll ws = .overrun b') :
    ∃ kept, b.Kept (encodings ws) kept b' ∧
      ∀ vs, vs <+: ws → b.Fits (encodings vs).length → encodings vs <+: kept := by
  induction ws generalizing b with
  | nil => contradiction
  | cons w ws ih =>
    rw [putAll] at h
    cases hput : b.put w with
    | done b₁ =>
      rw [hput] at h
      obtain ⟨hfits, rfl⟩ := put_eq_done_iff.1 hput
      obtain ⟨kept, hkept, hwhole⟩ := ih h
      refine ⟨w.encoding ++ kept, .append hfits hkept, fun vs hvs hroom => ?_⟩
      rcases List.prefix_cons_iff.1 hvs with rfl | ⟨us, rfl, hus⟩
      · exact List.nil_prefix
      · rw [encodings_cons, List.length_append, ← fits_stored] at hroom
        exact (List.prefix_append_right_inj _).2 (hwhole us hus hroom)
    | overrun b₁ =>
      rw [hput] at h
      obtain rfl := Put.overrun.inj h
      obtain ⟨kept, hkept⟩ := put_eq_overrun hput
      refine ⟨kept, hkept.of_start _, fun vs hvs hroom => ?_⟩
      rcases List.prefix_cons_iff.1 hvs with rfl | ⟨us, rfl, -⟩
      · exact List.nil_prefix
      · have hfits : b.Fits w.encoding.length := by
          rw [encodings_cons, List.length_append] at hroom
          rw [Fits] at hroom ⊢
          omega
        rw [put_eq_done_iff.2 ⟨hfits, rfl⟩] at hput
        contradiction

/-- Writes whose bytes do not all have room run over the end. -/
theorem putAll_cutOff {bytes : Array UInt8} {pos : Nat} {ws : List Write} (hne : encodings ws ≠ [])
    (hroom : bytes.size < pos + (encodings ws).length) :
    ∃ b kept, putAll ⟨bytes, pos⟩ ws = .overrun b ∧ b.pos = pos + kept.length ∧
      CutOff bytes pos (encodings ws) kept b.bytes ∧
      ∀ vs, vs <+: ws → pos + (encodings vs).length ≤ bytes.size → encodings vs <+: kept := by
  have hws : ws ≠ [] := by
    rintro rfl
    exact hne rfl
  have hfits : ¬ Fits ⟨bytes, pos⟩ (encodings ws).length := Nat.not_le_of_lt hroom
  cases hput : putAll ⟨bytes, pos⟩ ws with
  | done b => exact absurd ((putAll_eq_done_iff hws).1 hput).1 hfits
  | overrun b =>
    obtain ⟨kept, hkept, hwhole⟩ := putAll_eq_overrun hput
    exact ⟨b, kept, rfl, by rw [hkept.buffer, stored], hkept.cutOff hne hfits, hwhole⟩

end Wire.Buffer

/-- A span, or a list that is not empty, is not written in full when its encoding has no room behind
the position. What the buffer then holds there is a beginning of the encoding that ends within the
buffer, and for a list no frame with room is missing from it. -/
theorem overrun_cutOff (c : Codec) (out : Array UInt8) (pos : Nat) :
    (∀ s : Span, out.size < pos + s.encode.size →
      ∃ kept out', (c.perform out (.write s pos)).value =
          (.reached (pos + kept.length) true, out') ∧
        Buffer.CutOff out pos s.encode.toList kept out') ∧
    ∀ spans : List Span, spans ≠ [] → out.size < pos + (encodeList spans).size →
      ∃ kept out', (c.perform out (.writeList spans pos)).value = (.written none, out') ∧
        Buffer.CutOff out pos (encodeList spans).toList kept out' ∧
        ∀ front back, front ++ back = spans → pos + (encodeList front).size ≤ out.size →
          (encodeList front).toList <+: kept := by
  refine ⟨fun s hroom => ?span, fun spans hspans hroom => ?list⟩
  case span =>
    have hne : encodings s.writes ≠ [] := by
      have hkey : s.traceId.byteLength + 10 ≤ s.size := by
        rw [Span.size]
        omega
      rw [← List.length_pos_iff, s.length_writes]
      omega
    rw [s.encode_eq, List.size_toArray] at hroom
    rw [s.encode_eq, List.toList_toArray]
    obtain ⟨b, kept, hput, hpos, hcut, -⟩ := Buffer.putAll_cutOff hne hroom
    refine ⟨kept, b.bytes, ?_, hcut⟩
    rw [Codec.perform_write hput, ← hpos]
    rfl
  case list =>
    have hne : encodings (spans.flatMap Span.frameWrites) ≠ [] := by
      intro hnil
      refine hspans (encodeList_eq_empty_iff.1 ?_)
      rw [encodeList_eq, hnil]
    simp only [encodeList_eq, List.size_toArray, List.toList_toArray] at hroom ⊢
    obtain ⟨b, kept, hput, -, hcut, hwhole⟩ := Buffer.putAll_cutOff hne hroom
    refine ⟨kept, b.bytes, ?_, hcut, fun front back hcat hfront => hwhole _ ?_ hfront⟩
    · rw [Codec.perform_writeList ((c.writeList_value _ spans).trans hput)]
      rfl
    · rw [← hcat, List.flatMap_append]
      exact List.prefix_append _ _

/-- A buffer that ends within the second of two spans keeps the frame of the first one. -/
theorem overrun_cutOff_sample :
    (∃ kept out', (Codec.perform {} (Array.replicate 150 1) (.write Span.sample 60)).value =
        (.reached (60 + kept.length) true, out') ∧
      Buffer.CutOff (Array.replicate 150 1) 60 Span.sample.encode.toList kept out') ∧
    ∃ kept out', (Codec.perform {} (Array.replicate 150 1)
        (.writeList [Span.sample, Span.sample] 5)).value = (.written none, out') ∧
      Buffer.CutOff (Array.replicate 150 1) 5 (encodeList [Span.sample, Span.sample]).toList kept
        out' ∧
      (encodeList [Span.sample]).toList <+: kept := by
  have hspan : (Array.replicate 150 (1 : UInt8)).size < 60 + Span.sample.encode.size := by
    rw [Array.size_replicate, Span.size_encode]
    decide
  have hlist : (Array.replicate 150 (1 : UInt8)).size <
      5 + (encodeList [Span.sample, Span.sample]).size := by
    rw [Array.size_replicate, size_encodeList]
    decide
  have hfront : 5 + (encodeList [Span.sample]).size ≤ (Array.replicate 150 (1 : UInt8)).size := by
    rw [Array.size_replicate, size_encodeList]
    decide
  refine ⟨(overrun_cutOff {} _ 60).1 _ hspan, ?_⟩
  obtain ⟨kept, out', hput, hcut, hwhole⟩ :=
    (overrun_cutOff {} _ 5).2 _ (List.cons_ne_nil _ _) hlist
  exact ⟨kept, out', hput, hcut, hwhole [Span.sample] [Span.sample] rfl hfront⟩

end SpanWire
