import SpanWire.Proofs.Wire.Frames
import SpanWire.Wire.Codec

/-!
A list that is written into a given buffer span by span, with each size computed right before its
span, takes up the same bytes as the encoding that is made in one piece.
-/
namespace SpanWire.Wire.Codec

open Buffer (StoredAt)

theorem encodeList_value (c : Codec) (spans : List Span) :
    (c.encodeList spans).value = SpanWire.encodeList spans := by
  have hlengths : (spans.map c.size).map (·.value) = spans.map Span.size := List.map_map
  rw [encodeList, hlengths]
  rfl

theorem encodeList_warnings (c : Codec) (spans : List Span) :
    (c.encodeList spans).warnings = spans.flatMap c.warningsOf :=
  List.flatMap_map c.size Warned.warnings spans

/-- A span of a list is written behind the size that is computed for it. -/
theorem writeList_cons (c : Codec) (b : Buffer) (s : Span) (spans : List Span) :
    c.writeList b (s :: spans) =
      match s.writeFrame s.size b with
      | .done b =>
        ⟨(c.writeList b spans).value, c.warningsOf s ++ (c.writeList b spans).warnings⟩
      | .overrun b => ⟨.overrun b, c.warningsOf s⟩ :=
  rfl

theorem writeList_value (c : Codec) (b : Buffer) (spans : List Span) :
    (c.writeList b spans).value = b.putAll (spans.flatMap Span.frameWrites) := by
  induction spans generalizing b with
  | nil => rfl
  | cons s spans ih =>
    rw [List.flatMap_cons, Buffer.putAll_append, writeList_cons, s.writeFrame_eq]
    cases b.putAll s.frameWrites with
    | done b => exact ih b
    | overrun b => rfl

theorem flatMap_frameWrites_ne_nil {spans : List Span} (h : spans ≠ []) :
    spans.flatMap Span.frameWrites ≠ [] := by
  cases spans with
  | nil => contradiction
  | cons s spans => simp [Span.frameWrites]

/-- A list goes through exactly when its encoding has room, which is then stored as a whole. -/
theorem writeList_eq_done_iff {c : Codec} {b b' : Buffer} {spans : List Span} (h : spans ≠ []) :
    (c.writeList b spans).value = .done b' ↔
      b.Fits (c.encodeList spans).value.size ∧
      b' = b.stored (c.encodeList spans).value.toList := by
  rw [writeList_value, Buffer.putAll_eq_done_iff (flatMap_frameWrites_ne_nil h), encodeList_value,
    encodeList_eq, List.size_toArray, List.toList_toArray]

theorem perform_write {c : Codec} {out : Array UInt8} {pos : Nat} {s : Span} {p : Put}
    (h : s.write ⟨out, pos⟩ = p) :
    (c.perform out (.write s pos)).value = (.reached p.buffer.pos p.isOverrun, p.buffer.bytes) := by
  subst h
  rfl

/-- The bytes written are the way the position has gone. -/
theorem perform_writeList {c : Codec} {out : Array UInt8} {pos : Nat} {spans : List Span} {p : Put}
    (h : (c.writeList ⟨out, pos⟩ spans).value = p) :
    (c.perform out (.writeList spans pos)).value =
      (.written (if p.isOverrun then none else some (p.buffer.pos - pos)), p.buffer.bytes) := by
  subst h
  rw [perform]
  cases (c.writeList ⟨out, pos⟩ spans).value <;> rfl

/-- The empty list writes nothing, wherever it is to be written. Any other list is written exactly
when its encoding has room behind the position: its length is then the answer, it stands in the
buffer, and nothing else of the buffer changes. -/
theorem perform_writeList_extent (c : Codec) (out : Array UInt8) (pos : Nat) :
    (c.perform out (.writeList [] pos)).value = (.written (some 0), out) ∧
    ∀ spans : List Span, spans ≠ [] →
      ((∃ n, (c.perform out (.writeList spans pos)).value.1 = .written (some n)) ↔
        pos + (c.encodeList spans).value.size ≤ out.size) ∧
      ∀ n, (c.perform out (.writeList spans pos)).value.1 = .written (some n) →
        n = (c.encodeList spans).value.size ∧
        StoredAt out pos (c.encodeList spans).value.toList
          (c.perform out (.writeList spans pos)).value.2 := by
  refine ⟨?empty, fun spans hspans => ?_⟩
  case empty =>
    rw [perform_writeList rfl]
    simp [writeList, Put.isOverrun, Put.buffer]
  cases hput : (c.writeList ⟨out, pos⟩ spans).value with
  | done b =>
    obtain ⟨hfits, rfl⟩ := (writeList_eq_done_iff hspans).1 hput
    have hstored : StoredAt out pos (c.encodeList spans).value.toList _ :=
      Buffer.storedAt_stored hfits
    rw [perform_writeList hput]
    refine ⟨iff_of_true ⟨_, rfl⟩ hfits, fun n h => ?_⟩
    have hcount : pos + (c.encodeList spans).value.size - pos = n :=
      Option.some.inj (Answer.written.inj h)
    exact ⟨by omega, hstored⟩
  | overrun b =>
    have hfits : ¬ (Buffer.mk out pos).Fits (c.encodeList spans).value.size := by
      intro hfits
      rw [(writeList_eq_done_iff hspans).2 ⟨hfits, rfl⟩] at hput
      contradiction
    have hnone : ∀ n, (c.perform out (.writeList spans pos)).value.1 ≠ .written (some n) := by
      intro n h
      rw [perform_writeList hput, Put.isOverrun, if_pos rfl] at h
      exact Option.some_ne_none n (Answer.written.inj h).symm
    exact ⟨iff_of_false (not_exists.2 hnone) hfits, fun n h => absurd h (hnone n)⟩

/-- Two spans fill a buffer behind five bytes of it, and do not fit one byte later. -/
theorem perform_writeList_sample :
    (perform {} (Array.replicate 221 1) (.writeList [Span.sample, Span.sample] 5)).value.1 =
      .written (some 216) ∧
    StoredAt (Array.replicate 221 1) 5 (encodeList {} [Span.sample, Span.sample]).value.toList
      (perform {} (Array.replicate 221 1) (.writeList [Span.sample, Span.sample] 5)).value.2 ∧
    ∀ n, (perform {} (Array.replicate 221 1) (.writeList [Span.sample, Span.sample] 6)).value.1 ≠
      .written (some n) := by
  have hsize : (encodeList {} [Span.sample, Span.sample]).value.size = 216 := by
    rw [encodeList_value, size_encodeList]
    decide
  have hspans : [Span.sample, Span.sample] ≠ [] := List.cons_ne_nil _ _
  have hfive := (perform_writeList_extent {} (Array.replicate 221 1) 5).2 _ hspans
  have hsix := (perform_writeList_extent {} (Array.replicate 221 1) 6).2 _ hspans
  rw [hsize, Array.size_replicate] at hfive hsix
  have hsix' : ¬ 6 + 216 ≤ 221 := by decide
  obtain ⟨n, hn⟩ := hfive.1.2 (by decide)
  obtain ⟨rfl, hstored⟩ := hfive.2 n hn
  exact ⟨hn, hstored, fun n hn => hsix' (hsix.1.1 ⟨n, hn⟩)⟩

end SpanWire.Wire.Codec
