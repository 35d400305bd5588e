import SpanWire.Proofs.Wire.Lengths
import SpanWire.Proofs.Wire.Shortest

/-!
Sizes in words of 64 bits. `none` stands for a sum that has run over its word, and goes on as `none`
through all sums that it is a part of. No sum runs over as long as the size of the whole fits a
word, and then no key or length of what is written has lost a bit.
-/
namespace SpanWire

namespace Wire

/-- A number as a word, if it fits. -/
def word? (n : Nat) : Option UInt64 :=
  if n < 2 ^ 64 then some (UInt64.ofNat n) else none

/-- Addition modulo `2 ^ 64`, unless something is carried out of the word. -/
def addWords? (a b : Option UInt64) : Option UInt64 := do
  let x ← a
  let y ← b
  if x.toNat + y.toNat < 2 ^ 64 then some (x + y) else none

/-- Adds up from the left. -/
def sumWords? (parts : List (Option UInt64)) : Option UInt64 :=
  parts.foldl addWords? (some 0)

/-- A word that is there and stands for the whole number. -/
def IsExact (word : Option UInt64) (n : Nat) : Prop :=
  ∃ w, word = some w ∧ w.toNat = n

def varintWord (v : UInt64) : UInt64 :=
  UInt64.ofNat (varintSize v)

def delimitedFieldSize? (size : Option UInt64) : Option UInt64 :=
  addWords? (addWords? (some 1) (size.map varintWord)) size

def textFieldSize? (s : String) : Option UInt64 :=
  delimitedFieldSize? (word? s.utf8ByteSize)

theorem word?_of_lt {n : Nat} (h : n < 2 ^ 64) : word? n = some (UInt64.ofNat n) :=
  if_pos h

theorem word?_of_le {n : Nat} (h : 2 ^ 64 ≤ n) : word? n = none :=
  if_neg (Nat.not_lt.2 h)

theorem word?_eq_none_iff {n : Nat} : word? n = none ↔ 2 ^ 64 ≤ n := by
  rcases Nat.lt_or_ge n (2 ^ 64) with h | h
  · rw [word?_of_lt h]
    exact iff_of_false nofun (Nat.not_le.2 h)
  · exact iff_of_true (word?_of_le h) h

theorem isExact_word? {n : Nat} (h : n < 2 ^ 64) : IsExact (word? n) n :=
  ⟨UInt64.ofNat n, word?_of_lt h, UInt64.toNat_ofNat_of_lt' h⟩

theorem some_varintWord (v : UInt64) : some (varintWord v) = word? (varintSize v) :=
  (word?_of_lt (Nat.lt_of_le_of_lt (varintSize_le v) (by decide))).symm

/-- The sum of words is the word of the sum. Where a part has run over, so has the whole. -/
theorem addWords?_word? (m n : Nat) : addWords? (word? m) (word? n) = word? (m + n) := by
  rcases Nat.lt_or_ge m (2 ^ 64) with hm | hm
  · rcases Nat.lt_or_ge n (2 ^ 64) with hn | hn
    · rw [word?_of_lt hm, word?_of_lt hn, word?, UInt64.ofNat_add]
      change (if (UInt64.ofNat m).toNat + (UInt64.ofNat n).toNat < 2 ^ 64 then _ else _) = _
      rw [UInt64.toNat_ofNat_of_lt' hm, UInt64.toNat_ofNat_of_lt' hn]
    · rw [word?_of_lt hm, word?_of_le hn, word?_of_le (by omega)]
      rfl
  · rw [word?_of_le hm, word?_of_le (Nat.le_trans hm (Nat.le_add_right m n))]
    rfl

theorem delimitedFieldSize?_word? (n : Nat) :
    delimitedFieldSize? (word? n) = word? (delimitedFieldSize n) := by
  rcases Nat.lt_or_ge n (2 ^ 64) with hn | hn
  · have hone : some 1 = word? 1 := rfl
    have hlength : (word? n).map varintWord = word? (varintSize (UInt64.ofNat n)) := by
      rw [word?_of_lt hn, Option.map_some, some_varintWord]
    rw [delimitedFieldSize?, hlength, hone, addWords?_word?, addWords?_word?, delimitedFieldSize]
  · have hlt := lt_delimitedFieldSize n
    rw [word?_of_le hn, word?_of_le (by omega)]
    rfl

theorem textFieldSize?_eq (s : String) : textFieldSize? s = word? (textFieldSize s) :=
  delimitedFieldSize?_word? s.utf8ByteSize

/-- Parts that add up to a number, whatever they are added to. -/
def SumsTo (parts : List (Option UInt64)) (n : Nat) : Prop :=
  ∀ m, parts.foldl addWords? (word? m) = word? (m + n)

namespace SumsTo

variable {parts rest : List (Option UInt64)} {p : Option UInt64} {m n : Nat}

theorem sumWords?_eq (h : SumsTo parts n) : sumWords? parts = word? n := by
  have hzero := h 0
  rwa [Nat.zero_add] at hzero

theorem nil : SumsTo [] 0 :=
  fun _ => rfl

theorem single (h : p = word? n) : SumsTo [p] n := by
  intro k
  rw [List.foldl_cons, List.foldl_nil, h, addWords?_word?]

theorem append (hp : SumsTo parts m) (hr : SumsTo rest n) : SumsTo (parts ++ rest) (m + n) := by
  intro k
  rw [List.foldl_append, hp, hr, Nat.add_assoc]

theorem single_if (present : Bool) (h : p = word? n) :
    SumsTo (if present then [p] else []) (if present then n else 0) := by
  cases present with
  | true => exact single h
  | false => exact nil

theorem single_unless (absent : Prop) [Decidable absent] (h : p = word? n) :
    SumsTo (if absent then [] else [p]) (if absent then 0 else n) := by
  split
  · exact nil
  · exact single h

theorem map {α : Type} {f : α → Option UInt64} {size : α → Nat} (h : ∀ x, f x = word? (size x))
    (xs : List α) : SumsTo (xs.map f) (total (xs.map size)) := by
  induction xs with
  | nil => exact nil
  | cons x xs ih => exact append (single (h x)) ih

end SumsTo

end Wire

open Wire

def Endpoint.size? (e : Endpoint) : Option UInt64 :=
  sumWords? <|
    (match e.serviceName with
      | none => []
      | some name => [textFieldSize? name]) ++
    (if e.ipv4.isSome then [some 6] else []) ++
    (if e.ipv6.isSome then [some 18] else []) ++
    (match e.port with
      | none => []
      | some port => [addWords? (some 1) (some (varintWord port.toUInt64))])

def endpointFieldSize? : Option Endpoint → Option UInt64
  | none => some 0
  | some e => if e.isEmpty then some 0 else delimitedFieldSize? e.size?

def Annotation.size? (a : Annotation) : Option UInt64 :=
  addWords? (some 9) (textFieldSize? a.value)

def Annotation.fieldSize? (a : Annotation) : Option UInt64 :=
  delimitedFieldSize? a.size?

def tagSize? (key value : String) : Option UInt64 :=
  addWords? (textFieldSize? key) (textFieldSize? value)

def tagFieldSize? (key value : String) : Option UInt64 :=
  delimitedFieldSize? (tagSize? key value)

def Span.size? (s : Span) : Option UInt64 :=
  sumWords? <|
    [addWords? (some 2) (word? s.traceId.byteLength)] ++
    (if s.parentId.isSome then [some 10] else []) ++
    [some 10] ++
    (if s.kind.isSome then [some 2] else []) ++
    (match s.name with
      | none => []
      | some name => [textFieldSize? name]) ++
    (if s.timestamp = 0 then [] else [some 9]) ++
    (if s.duration = 0 then [] else [addWords? (some 1) (some (varintWord s.duration))]) ++
    [endpointFieldSize? s.localEndpoint] ++
    [endpointFieldSize? s.remoteEndpoint] ++
    s.annotations.map Annotation.fieldSize? ++
    s.tags.entries.map (fun e => tagFieldSize? e.1 e.2) ++
    (if s.debug then [some 2] else []) ++
    (if s.shared then [some 2] else [])

/-- All sizes are computed before they are added up as those of frames. -/
def framedSize? (spans : List Span) : Option UInt64 :=
  sumWords? ((spans.map Span.size?).map delimitedFieldSize?)

theorem Wire.addWords?_varintWord (v : UInt64) :
    addWords? (some 1) (some (varintWord v)) = word? (1 + varintSize v) := by
  rw [some_varintWord, ← addWords?_word?]
  rfl

theorem Endpoint.size?_eq (e : Endpoint) : e.size? = word? e.size := by
  refine SumsTo.sumWords?_eq ?_
  rw [size]
  refine .append (.append (.append ?name ?ipv4) ?ipv6) ?port
  case name =>
    cases e.serviceName with
    | none => exact .nil
    | some name => exact .single (textFieldSize?_eq name)
  case ipv4 => exact .single_if _ rfl
  case ipv6 => exact .single_if _ rfl
  case port =>
    cases e.port with
    | none => exact .nil
    | some port => exact .single (addWords?_varintWord _)

theorem endpointFieldSize?_eq (o : Option Endpoint) :
    endpointFieldSize? o = word? (endpointFieldSize o) := by
  cases o with
  | none => rfl
  | some e =>
    rw [endpointFieldSize?, endpointFieldSize]
    split
    · rfl
    · rw [e.size?_eq, delimitedFieldSize?_word?]

theorem Annotation.size?_eq (a : Annotation) : a.size? = word? a.size := by
  rw [size?, textFieldSize?_eq]
  exact addWords?_word? 9 _

theorem Annotation.fieldSize?_eq (a : Annotation) : a.fieldSize? = word? a.fieldSize := by
  rw [fieldSize?, size?_eq, delimitedFieldSize?_word?, fieldSize]

theorem tagSize?_eq (key value : String) : tagSize? key value = word? (tagSize key value) := by
  rw [tagSize?, textFieldSize?_eq, textFieldSize?_eq, addWords?_word?, tagSize]

theorem tagFieldSize?_eq (key value : String) :
    tagFieldSize? key value = word? (tagFieldSize key value) := by
  rw [tagFieldSize?, tagSize?_eq, delimitedFieldSize?_word?, tagFieldSize]

/-- The size of a span in words is its size, unless it does not fit a word. -/
theorem Span.size?_eq (s : Span) : s.size? = word? s.size := by
  refine SumsTo.sumWords?_eq ?_
  rw [size]
  iterate 12 refine .append ?_ ?_
  · exact .single (addWords?_word? 2 _)
  · exact .single_if _ rfl
  · exact .single rfl
  · exact .single_if _ rfl
  · cases s.name with
    | none => exact .nil
    | some name => exact .single (textFieldSize?_eq name)
  · exact .single_unless _ rfl
  · exact .single_unless _ (addWords?_varintWord _)
  · exact .single (endpointFieldSize?_eq _)
  · exact .single (endpointFieldSize?_eq _)
  · exact .map Annotation.fieldSize?_eq s.annotations
  · refine .map (fun e => ?_) s.tags.entries
    exact tagFieldSize?_eq e.1 e.2
  · exact .single_if _ rfl
  · exact .single_if _ rfl

theorem framedSize?_eq (spans : List Span) : framedSize? spans = word? (framedSize spans) := by
  refine SumsTo.sumWords?_eq ?_
  rw [framedSize, List.map_map, List.map_map]
  refine .map (fun s => ?_) spans
  rw [Function.comp_apply, s.size?_eq]
  exact delimitedFieldSize?_word? s.size

/-- The sizes within a span and that of the whole are exact in words. -/
structure Span.SizesExact (s : Span) : Prop where
  whole : IsExact s.size? s.size
  localEndpoint : ∀ e ∈ s.localEndpoint, e.isEmpty = false → IsExact e.size? e.size
  remoteEndpoint : ∀ e ∈ s.remoteEndpoint, e.isEmpty = false → IsExact e.size? e.size
  annotations : ∀ a ∈ s.annotations, IsExact a.size? a.size
  tags : ∀ e ∈ s.tags.entries, IsExact (tagSize? e.1 e.2) (tagSize e.1 e.2)

theorem Span.sizesExact {s : Span} (h : s.size < 2 ^ 64) : s.SizesExact := by
  have hparts := s.partsFit h
  refine ⟨?whole, fun e he hne => ?localEndpoint, fun e he hne => ?remoteEndpoint,
    fun a ha => ?annotations, fun e he => ?tags⟩
  case whole => exact s.size?_eq ▸ isExact_word? h
  case localEndpoint => exact e.size?_eq ▸ isExact_word? (hparts.localEndpoint e he hne)
  case remoteEndpoint => exact e.size?_eq ▸ isExact_word? (hparts.remoteEndpoint e he hne)
  case annotations => exact a.size?_eq ▸ isExact_word? (hparts.annotations a ha)
  case tags => exact tagSize?_eq e.1 e.2 ▸ isExact_word? (hparts.tags e he)

/-- No sum on the way to the size of a list runs over, unless the list in full is too long for a
word. The word is then what is written, every size within it is exact in words, and so are all keys
and lengths. -/
theorem sizes_fit_words :
    (∀ spans, framedSize? spans = none ↔ 2 ^ 64 ≤ framedSize spans) ∧
    ∀ spans, framedSize spans < 2 ^ 64 →
      IsExact (framedSize? spans) (framedSize spans) ∧
      (∀ s ∈ spans, s.SizesExact) ∧
      (encodeList spans).size = framedSize spans ∧
      (encodeList spans).toList = encodings (spans.flatMap Span.frameWrites) ∧
      ExactFields (spans.flatMap Span.frameWrites) := by
  refine ⟨fun spans => ?overflow, fun spans h => ⟨?total, fun s hs => ?sizes,
    size_encodeList spans, ?written, exactFields_frames (size_lt_of_framedSize h)⟩⟩
  case overflow => rw [framedSize?_eq, word?_eq_none_iff]
  case total => exact framedSize?_eq spans ▸ isExact_word? h
  case sizes => exact Span.sizesExact (size_lt_of_framedSize h s hs)
  case written => rw [encodeList_eq, List.toList_toArray]

/-- Two frames of 108 bytes, added up in words. -/
theorem sizes_fit_words_sample :
    framedSize? [.sample, .sample] = some 216 ∧ Span.sample.size? = some 106 ∧
    ExactFields (Span.sample.frameWrites ++ Span.sample.frameWrites) := by
  have hfits : framedSize [.sample, .sample] < 2 ^ 64 := by decide
  obtain ⟨⟨total, htotal, hwhole⟩, hsizes, -, -, hexact⟩ :=
    sizes_fit_words.2 [.sample, .sample] hfits
  obtain ⟨size, hsize, hspan⟩ := (hsizes .sample List.mem_cons_self).whole
  obtain rfl : total = 216 := UInt64.toNat_inj.1 (hwhole.trans (by decide))
  obtain rfl : size = 106 := UInt64.toNat_inj.1 (hspan.trans (by decide))
  rw [List.flatMap_cons, List.flatMap_singleton] at hexact
  exact ⟨htotal, hsize, hexact⟩

end SpanWire
