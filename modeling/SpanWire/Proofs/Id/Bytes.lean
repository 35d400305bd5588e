import SpanWire.Proofs.Id.Grammar
import SpanWire.Proofs.Wire.Extent

/-!
Identifiers by their bytes. Every identifier has its own bytes, which are also what is stored for it
in an encoded span, and all bytes in the right number are those of an identifier unless they are
zero.
-/
namespace SpanWire

namespace Hex

theorem length_ofBytes (bs : List UInt8) : (ofBytes bs).length = 2 * bs.length := by
  induction bs with
  | nil => rfl
  | cons b bs ih =>
    have hcons : ofBytes (b :: bs) = digitsOfByte b ++ ofBytes bs := rfl
    rw [hcons, List.length_append, ih, List.length_cons]
    change 2 + _ = _
    omega

theorem digitsOfByte_eq_zero_iff (b : UInt8) :
    (∀ d ∈ digitsOfByte b, d = Digit.zero) ↔ b = 0 := by
  have hlt := b.toNat_lt
  have hdigit (n : Nat) : Fin.ofNat 16 n = Digit.zero ↔ n % 16 = 0 := Fin.ext_iff
  have hbyte : b = 0 ↔ b.toNat = 0 := UInt8.toNat_inj.symm
  rw [digitsOfByte, List.forall_mem_cons, List.forall_mem_singleton, hdigit, hdigit, hbyte]
  omega

/-- Bytes are zero if their digits are. -/
theorem ofBytes_eq_zero_iff (bs : List UInt8) :
    (∀ d ∈ ofBytes bs, d = Digit.zero) ↔ ∀ b ∈ bs, b = 0 := by
  simp only [ofBytes, List.forall_mem_flatMap, digitsOfByte_eq_zero_iff]

theorem ofBytes_nonzero_iff (bs : List UInt8) :
    (∃ d ∈ ofBytes bs, d ≠ Digit.zero) ↔ ∃ b ∈ bs, b ≠ 0 := by
  rw [← not_iff_not]
  simpa using ofBytes_eq_zero_iff bs

/-- No digit is lost in the bytes of digits in pairs. -/
theorem toBytes_nonzero_iff {ds : List Digit} (h : ds.length % 2 = 0) :
    (∃ b ∈ toBytes ds, b ≠ 0) ↔ ∃ d ∈ ds, d ≠ Digit.zero := by
  rw [← ofBytes_nonzero_iff, ofBytes_toBytes h]

end Hex

/-- How identifiers are read from bytes that were counted. Exactly those bytes are taken that are
the bytes of an identifier. -/
structure ReadsBytes {Id : Type} (kind : IdKind) (counts : List Nat)
    (read : List UInt8 → Except IdError Id) (bytes : Id → List UInt8) : Prop where
  accepts : ∀ bs, (∃ id, read bs = .ok id) ↔ bs.length ∈ counts ∧ ∃ b ∈ bs, b ≠ 0
  miscounted : ∀ bs, bs.length ∉ counts → read bs = .error (.byteCount kind bs.length)
  zero : ∀ bs, bs.length ∈ counts → (∀ b ∈ bs, b = 0) → read bs = .error (.zero kind)
  stored : ∀ bs id, read bs = .ok id → bytes id = bs
  again : ∀ id, read (bytes id) = .ok id

/-- It is enough to know what becomes of bytes in each of the three cases, if the bytes of
identifiers are in the good case and tell them apart. -/
theorem ReadsBytes.of_cases {Id : Type} {kind : IdKind} {counts : List Nat}
    {read : List UInt8 → Except IdError Id} {bytes : Id → List UInt8}
    (hmiscounted : ∀ bs, bs.length ∉ counts → read bs = .error (.byteCount kind bs.length))
    (hzero : ∀ bs, bs.length ∈ counts → (∀ b ∈ bs, b = 0) → read bs = .error (.zero kind))
    (hread : ∀ bs, bs.length ∈ counts → (∃ b ∈ bs, b ≠ 0) → ∃ id, read bs = .ok id ∧ bytes id = bs)
    (hbytes : ∀ id, (bytes id).length ∈ counts ∧ ∃ b ∈ bytes id, b ≠ 0)
    (hinj : ∀ {a b}, bytes a = bytes b → a = b) : ReadsBytes kind counts read bytes := by
  have hstored {bs : List UInt8} {id : Id} (h : read bs = .ok id) :
      bytes id = bs ∧ bs.length ∈ counts ∧ ∃ b ∈ bs, b ≠ 0 := by
    by_cases hcount : bs.length ∈ counts
    · by_cases hnonzero : ∃ b ∈ bs, b ≠ 0
      · obtain ⟨id', hid, hbs⟩ := hread bs hcount hnonzero
        obtain rfl : id' = id := Except.ok.inj (hid.symm.trans h)
        exact ⟨hbs, hcount, hnonzero⟩
      · rw [hzero bs hcount (by simpa using hnonzero)] at h
        contradiction
    · rw [hmiscounted bs hcount] at h
      contradiction
  constructor
  case accepts =>
    intro bs
    constructor
    · rintro ⟨id, h⟩
      exact (hstored h).2
    · rintro ⟨hcount, hnonzero⟩
      obtain ⟨id, h, -⟩ := hread bs hcount hnonzero
      exact ⟨id, h⟩
  case miscounted => exact hmiscounted
  case zero => exact hzero
  case stored => exact fun bs id h => (hstored h).1
  case again =>
    intro id
    obtain ⟨id', h, hbs⟩ := hread (bytes id) (hbytes id).1 (hbytes id).2
    rw [h, hinj hbs]

theorem ReadsBytes.map_stored {Id : Type} {kind : IdKind} {counts : List Nat}
    {read : List UInt8 → Except IdError Id} {bytes : Id → List UInt8}
    (h : ReadsBytes kind counts read bytes) {bs : Option (List UInt8)} {id : Option Id}
    (hread : bs.map read = id.map .ok) : id.map bytes = bs := by
  cases bs with
  | none =>
    cases id with
    | none => rfl
    | some id => contradiction
  | some bs =>
    cases id with
    | none => contradiction
    | some id => exact congrArg some (h.stored bs id (Option.some.inj hread))

/-- Digits of zero bytes are no numeral. -/
theorem IdFault.zero_ofBytes (kind : IdKind) {longest : Nat} {bs : List UInt8}
    (hpos : 0 < bs.length) (hlength : 2 * bs.length ≤ longest) (hzero : ∀ b ∈ bs, b = 0) :
    IdFault kind longest (Hex.spell (Hex.ofBytes bs)) (.zero kind) := by
  have hutf8 := Hex.utf8_spell (Hex.ofBytes bs)
  have hcount : (Text.utf8 (Hex.spell (Hex.ofBytes bs))).length = 2 * bs.length := by
    rw [hutf8, List.length_map, Hex.length_ofBytes]
  refine .zero ?_ (by omega) (Hex.isDigitByte_spell _) ?_
  · intro hempty
    rw [hempty] at hcount
    have hnil : (Text.utf8 "").length = 0 := rfl
    omega
  · rw [hutf8]
    refine List.forall_mem_map.2 fun d hd => d.toByte_eq_iff.2 ?_
    exact (Hex.ofBytes_eq_zero_iff bs).2 hzero d hd

theorem TraceId.readsBytes : ReadsBytes .trace [8, 16] ofBytes? toBytes := by
  have hcounts (n : Nat) : n ∈ [8, 16] ↔ n = 8 ∨ n = 16 := by simp
  refine .of_cases (fun bs h => ?_) (fun bs h hzero => ?_) (fun bs h hnonzero => ?_)
    (fun id => ?_) toBytes_inj
  · rw [hcounts] at h
    rw [ofBytes?, if_neg h]
  · rw [hcounts] at h
    rw [ofBytes?, if_pos h]
    exact (readsNumerals.refuses _ _).2 (.zero_ofBytes .trace (by omega) (by omega) hzero)
  · rw [hcounts] at h
    have hlength := Hex.length_ofBytes bs
    let id : TraceId := ⟨Hex.ofBytes bs, by omega, (Hex.ofBytes_nonzero_iff bs).2 hnonzero⟩
    rw [ofBytes?, if_pos h]
    exact ⟨id, id.ofHex?_toString, Hex.toBytes_ofBytes bs⟩
  · have hwidth := id.width
    rw [hcounts, toBytes, Hex.length_toBytes, Hex.toBytes_nonzero_iff (by omega)]
    exact ⟨by omega, id.nonzero⟩

theorem SpanId.readsBytes : ReadsBytes .span [8] ofBytes? toBytes := by
  have hcounts (n : Nat) : n ∈ [8] ↔ n = 8 := List.mem_singleton
  refine .of_cases (fun bs h => ?_) (fun bs h hzero => ?_) (fun bs h hnonzero => ?_)
    (fun id => ?_) toBytes_inj
  · rw [hcounts] at h
    rw [ofBytes?, if_neg h]
  · rw [hcounts] at h
    rw [ofBytes?, if_pos h]
    exact (readsNumerals.refuses _ _).2 (.zero_ofBytes .span (by omega) (by omega) hzero)
  · rw [hcounts] at h
    have hlength := Hex.length_ofBytes bs
    let id : SpanId := ⟨Hex.ofBytes bs, by omega, (Hex.ofBytes_nonzero_iff bs).2 hnonzero⟩
    rw [ofBytes?, if_pos h]
    exact ⟨id, id.ofHex?_toString, Hex.toBytes_ofBytes bs⟩
  · have hwidth := id.width
    rw [hcounts, toBytes, Hex.length_toBytes, Hex.toBytes_nonzero_iff (by omega)]
    exact ⟨by omega, id.nonzero⟩

open Wire

/-- Bytes as they are stored behind a key, and their number, which takes one byte itself. -/
def counted (key : UInt8) (bs : List UInt8) : List UInt8 :=
  key :: UInt8.ofNat bs.length :: bs

/-- The fields 1 to 3 of a span, of which the second one need not be there. -/
def idFields (trace : List UInt8) (parent : Option (List UInt8)) (id : List UInt8) : List UInt8 :=
  counted 0x0a trace ++ parent.elim [] (counted 0x12) ++ counted 0x1a id

theorem encodings_idField (number : UInt8) (digits : List Hex.Digit) :
    encodings (idField number digits) =
      counted (fieldKey number .delimited) (Hex.toBytes digits) := by
  rw [idField, encodings_append, encodings_map_byte, counted, Hex.length_toBytes]
  rfl

theorem Span.idFields_prefix (s : Span) :
    idFields s.traceId.toBytes (s.parentId.map SpanId.toBytes) s.id.toBytes <+:
      s.encode.toList := by
  obtain ⟨rest, hwrites⟩ := s.exists_writes
  have hparent : encodings s.parentWrites =
      (s.parentId.map SpanId.toBytes).elim [] (counted 0x12) := by
    unfold parentWrites
    cases s.parentId with
    | none => rfl
    | some id => exact encodings_idField 2 id.digits
  refine ⟨encodings rest, ?_⟩
  rw [encode_eq, List.toList_toArray, hwrites, encodings_append, encodings_append,
    encodings_append, hparent, encodings_idField, encodings_idField, idFields, List.append_assoc,
    List.append_assoc]
  rfl

/-- Identifiers are one to one with the bytes that can be those of an identifier. Whatever bytes
the identifiers of a span were read from stand at the start of the encoded span, and whatever
stands there is read as these identifiers. -/
theorem ids_are_bytes :
    ReadsBytes .trace [8, 16] TraceId.ofBytes? TraceId.toBytes ∧
    ReadsBytes .span [8] SpanId.ofBytes? SpanId.toBytes ∧
    (∀ bs id, TraceId.ofBytes? bs = .ok id → id.byteLength = bs.length) ∧
    (∀ (s : Span) trace parent id, TraceId.ofBytes? trace = .ok s.traceId →
      parent.map SpanId.ofBytes? = s.parentId.map .ok → SpanId.ofBytes? id = .ok s.id →
      idFields trace parent id <+: s.encode.toList) ∧
    ∀ s : Span, ∃ trace parent id, idFields trace parent id <+: s.encode.toList ∧
      TraceId.ofBytes? trace = .ok s.traceId ∧
      parent.map SpanId.ofBytes? = s.parentId.map .ok ∧ SpanId.ofBytes? id = .ok s.id := by
  refine ⟨TraceId.readsBytes, SpanId.readsBytes, ?length, ?stored, ?read⟩
  case length =>
    intro bs id h
    rw [← TraceId.readsBytes.stored bs id h, TraceId.toBytes, Hex.length_toBytes,
      TraceId.byteLength]
  case stored =>
    intro s trace parent id htrace hparent hid
    rw [← TraceId.readsBytes.stored _ _ htrace, ← SpanId.readsBytes.map_stored hparent,
      ← SpanId.readsBytes.stored _ _ hid]
    exact s.idFields_prefix
  case read =>
    intro s
    refine ⟨_, _, _, s.idFields_prefix, TraceId.readsBytes.again _, ?_, SpanId.readsBytes.again _⟩
    rw [Option.map_map]
    exact congrArg (Option.map · s.parentId) (funext SpanId.readsBytes.again)

/-- Zero bytes in front belong to an identifier of 16 bytes. -/
theorem ids_are_bytes_sample :
    let trace := List.replicate 15 0 ++ [0x0a]
    (∃ id, TraceId.ofBytes? trace = .ok id ∧ id.byteLength = 16) ∧
    TraceId.ofBytes? (List.replicate 8 0) = .error (.zero .trace) ∧
    SpanId.ofBytes? (List.replicate 16 1) = .error (.byteCount .span 16) ∧
    idFields trace (some (List.replicate 8 0xbb)) (List.replicate 8 0xcc) <+:
      Span.sample.encode.toList := by
  intro trace
  obtain ⟨htrace, hspan, hlength, hstored, -⟩ := ids_are_bytes
  obtain ⟨id, hid⟩ := (htrace.accepts trace).2 ⟨by decide, by decide⟩
  have hmiscounted := hspan.miscounted (List.replicate 16 1) (by decide)
  have hzero := htrace.zero (List.replicate 8 0) (by decide) fun _ => List.eq_of_mem_replicate
  have htraceId : TraceId.ofBytes? trace = .ok Span.sample.traceId :=
    htrace.again Span.sample.traceId
  have hparentId : (some (List.replicate 8 0xbb)).map SpanId.ofBytes? =
      Span.sample.parentId.map .ok :=
    congrArg some (hspan.again (Span.sample.parentId.get rfl))
  have hspanId : SpanId.ofBytes? (List.replicate 8 0xcc) = .ok Span.sample.id :=
    hspan.again Span.sample.id
  have hprefix := hstored Span.sample trace (some (List.replicate 8 0xbb)) (List.replicate 8 0xcc)
    htraceId hparentId hspanId
  exact ⟨⟨id, hid, hlength trace id hid⟩, hzero, hmiscounted, hprefix⟩

end SpanWire
