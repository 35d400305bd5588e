import SpanWire.Proofs.Wire.Extent

/-!
The encoding of a list of spans is that of its spans, each behind a key and its size. The sizes are
added up before anything is written, and the cursor ends where they say.
-/
namespace SpanWire

open Wire

namespace Wire.Buffer

theorem putAll_append (b : Buffer) (ws vs : List Write) :
    b.putAll (ws ++ vs) =
      match b.putAll ws with
      | .done b => b.putAll vs
      | .overrun b => .overrun b := by
  induction ws generalizing b with
  | nil => rfl
  | cons w ws ih =>
    rw [List.cons_append, putAll, putAll]
    cases b.put w with
    | done b => exact ih b
    | overrun b => rfl

end Wire.Buffer

/-- The writes of a span as an entry of a list. -/
def Span.frameWrites (s : Span) : List Write :=
  [.byte (fieldKey 1 .delimited), .varint (UInt64.ofNat s.size)] ++ s.writes

/-- What a list of spans takes, with the key and the size of each. -/
def framedSize (spans : List Span) : Nat :=
  total ((spans.map Span.size).map delimitedFieldSize)

theorem size_lt_of_framedSize {spans : List Span} (h : framedSize spans < 2 ^ 64) :
    ∀ s ∈ spans, s.size < 2 ^ 64 := by
  intro s hs
  have hframe := lt_delimitedFieldSize s.size
  have hle := le_total_of_mem (List.mem_map_of_mem (f := delimitedFieldSize)
    (List.mem_map_of_mem (f := Span.size) hs))
  rw [framedSize] at h
  omega

theorem Span.writeFrame_eq (s : Span) (b : Buffer) :
    s.writeFrame s.size b = b.putAll s.frameWrites := by
  rw [frameWrites, Buffer.putAll_append]
  rfl

theorem Span.length_frameWrites (s : Span) :
    (encodings s.frameWrites).length = delimitedFieldSize s.size :=
  length_delimited 1 s.size s.writes s.length_writes

theorem writeFrames_eq (b : Buffer) (spans : List Span) :
    writeFrames b (spans.zip (spans.map Span.size)) =
      b.putAll (spans.flatMap Span.frameWrites) := by
  induction spans generalizing b with
  | nil => rfl
  | cons s spans ih =>
    rw [List.map_cons, List.zip_cons_cons, List.flatMap_cons, Buffer.putAll_append, writeFrames,
      s.writeFrame_eq]
    cases b.putAll s.frameWrites with
    | done b => exact ih b
    | overrun b => rfl

theorem length_framesWrites (spans : List Span) :
    (encodings (spans.flatMap Span.frameWrites)).length = framedSize spans := by
  rw [framedSize, List.map_map]
  exact length_flatMap Span.length_frameWrites spans

/-- What is written for a list fills a buffer of the size that is computed for it. -/
theorem writeFrames_zeros (spans : List Span) :
    writeFrames (.zeros (framedSize spans)) (spans.zip (spans.map Span.size)) =
      .done ⟨(encodings (spans.flatMap Span.frameWrites)).toArray, framedSize spans⟩ := by
  rw [writeFrames_eq, Buffer.putAll_zeros (length_framesWrites spans)]

theorem encodeList_eq (spans : List Span) :
    encodeList spans = (encodings (spans.flatMap Span.frameWrites)).toArray := by
  rw [encodeList]
  change (writeFrames (.zeros (framedSize spans)) _).buffer.bytes = _
  rw [writeFrames_zeros]
  rfl

theorem size_encodeList (spans : List Span) : (encodeList spans).size = framedSize spans := by
  rw [encodeList_eq, List.size_toArray, length_framesWrites]

theorem encodeList_append (front back : List Span) :
    encodeList (front ++ back) = encodeList front ++ encodeList back := by
  rw [encodeList_eq, encodeList_eq, encodeList_eq, List.flatMap_append, encodings_append,
    List.append_toArray]

/-- No frame is empty. -/
theorem encodeList_eq_empty_iff {spans : List Span} : encodeList spans = #[] ↔ spans = [] := by
  cases spans with
  | nil => exact iff_of_true rfl rfl
  | cons s spans =>
    refine iff_of_false (fun h => ?_) (List.cons_ne_nil s spans)
    have hsize := size_encodeList (s :: spans)
    have hframe := lt_delimitedFieldSize s.size
    have hcons : framedSize (s :: spans) = delimitedFieldSize s.size + framedSize spans := rfl
    rw [h, Array.size_empty] at hsize
    omega

/-- A span as an entry of a list: the key, the size in groups of seven bits, and the encoding. -/
def Span.frame (s : Span) : List UInt8 :=
  0x0a :: (leb128 s.size ++ s.encode.toList)

theorem Span.encodings_frameWrites_eq (s : Span) :
    encodings s.frameWrites =
      0x0a :: (varint (UInt64.ofNat s.size) ++ s.encode.toList) := by
  have hkey : fieldKey 1 .delimited = 0x0a := by decide
  rw [frameWrites, encodings_append, encode_eq, List.toList_toArray, ← hkey]
  simp [Write.encoding]

theorem Span.encodings_frameWrites {s : Span} (h : s.size < 2 ^ 64) :
    encodings s.frameWrites = s.frame := by
  rw [encodings_frameWrites_eq, varint_ofNat h, frame]

theorem encodings_framesWrites {spans : List Span} (h : ∀ s ∈ spans, s.size < 2 ^ 64) :
    encodings (spans.flatMap Span.frameWrites) = spans.flatMap Span.frame := by
  induction spans with
  | nil => rfl
  | cons s spans ih =>
    obtain ⟨hs, hspans⟩ := List.forall_mem_cons.1 h
    rw [List.flatMap_cons, List.flatMap_cons, encodings_append, Span.encodings_frameWrites hs,
      ih hspans]

/-- The encoding of a list is the frames of its spans, one after the other. They fill the buffer
that is sized for them up to its end, so a list that is cut in two is encoded in two parts, and only
the empty list takes no bytes. -/
theorem encodeList_frames {spans : List Span} (h : framedSize spans < 2 ^ 64) :
    writeFrames (.zeros (framedSize spans)) (spans.zip (spans.map Span.size)) =
      .done ⟨encodeList spans, framedSize spans⟩ ∧
    (encodeList spans).toList = spans.flatMap Span.frame ∧
    (encodeList spans).size =
      total (spans.map fun s => 1 + varintSize (UInt64.ofNat s.size) + s.size) ∧
    (∀ front back, front ++ back = spans →
      encodeList spans = encodeList front ++ encodeList back) ∧
    (encodeList spans = #[] ↔ spans = []) := by
  refine ⟨?filled, ?frames, ?size, ?parts, encodeList_eq_empty_iff⟩
  case filled => rw [writeFrames_zeros, encodeList_eq]
  case frames =>
    rw [encodeList_eq, List.toList_toArray, encodings_framesWrites (size_lt_of_framedSize h)]
  case size =>
    rw [size_encodeList, framedSize, List.map_map]
    rfl
  case parts =>
    rintro front back rfl
    exact encodeList_append front back

/-- Two frames, each of 106 bytes behind a key and a length of one byte. -/
theorem encodeList_frames_sample :
    (encodeList [Span.sample, Span.sample]).toList = Span.sample.frame ++ Span.sample.frame ∧
    (encodeList [Span.sample, Span.sample]).size = 216 := by
  have hfits : framedSize [.sample, .sample] < 2 ^ 64 := by decide
  obtain ⟨-, hframes, hsize, -⟩ := encodeList_frames hfits
  exact ⟨by simpa using hframes, hsize.trans (by decide)⟩

end SpanWire
