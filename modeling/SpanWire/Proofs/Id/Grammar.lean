import SpanWire.Proofs.Hex.Number
import SpanWire.Proofs.Id

/-!
The grammar of identifiers: which texts are taken, why others are not, and what becomes of those
that are. Zeros in front change neither the number nor, up to the width of the identifier, its
identity.
-/
namespace SpanWire

open Text (utf8)

/-- Texts of digits, not too many and not all zero. All of it is said about the bytes. -/
structure IsNumeral (longest : Nat) (text : String) : Prop where
  nonempty : 1 ≤ (utf8 text).length
  length_le : (utf8 text).length ≤ longest
  digits : ∀ b ∈ utf8 text, Hex.IsDigitByte b
  nonzero : ∃ b ∈ utf8 text, b ≠ 0x30

/-- What is wrong with a text. Of several faults the first one counts. -/
inductive IdFault (kind : IdKind) (longest : Nat) (text : String) : IdError → Prop
  | empty : text = "" → IdFault kind longest text (.empty kind)
  | tooLong : text ≠ "" → longest < (utf8 text).length →
    IdFault kind longest text (.tooLong kind text)
  | notLowerHex : text ≠ "" → (utf8 text).length ≤ longest →
    (∃ b ∈ utf8 text, ¬ Hex.IsDigitByte b) → IdFault kind longest text (.notLowerHex kind text)
  | zero : text ≠ "" → (utf8 text).length ≤ longest → (∀ b ∈ utf8 text, Hex.IsDigitByte b) →
    (∀ b ∈ utf8 text, b = 0x30) → IdFault kind longest text (.zero kind)

namespace IdFault

variable {kind : IdKind} {longest : Nat} {text : String} {error : IdError}

theorem not_isNumeral (h : IdFault kind longest text error) : ¬ IsNumeral longest text := by
  intro hnumeral
  cases h with
  | empty hempty =>
    subst hempty
    exact absurd hnumeral.nonempty (by decide)
  | tooLong _ hlong => exact absurd hnumeral.length_le (by omega)
  | notLowerHex _ _ hother =>
    obtain ⟨b, hb, hnot⟩ := hother
    exact hnot (hnumeral.digits b hb)
  | zero _ _ _ hzero =>
    obtain ⟨b, hb, hne⟩ := hnumeral.nonzero
    exact hne (hzero b hb)

theorem unique {other : IdError} (h : IdFault kind longest text error)
    (h' : IdFault kind longest text other) : error = other := by
  cases h with
  | empty hempty =>
    cases h' with
    | empty => rfl
    | tooLong hne | notLowerHex hne | zero hne => exact absurd hempty hne
  | tooLong hne hlong =>
    cases h' with
    | empty hempty => exact absurd hempty hne
    | tooLong => rfl
    | notLowerHex _ hshort | zero _ hshort => omega
  | notLowerHex hne hshort hother =>
    obtain ⟨b, hb, hnot⟩ := hother
    cases h' with
    | empty hempty => exact absurd hempty hne
    | tooLong _ hlong => omega
    | notLowerHex => rfl
    | zero _ _ hdigits => exact absurd (hdigits b hb) hnot
  | zero hne hshort hdigits =>
    cases h' with
    | empty hempty => exact absurd hempty hne
    | tooLong _ hlong => omega
    | notLowerHex _ _ hother =>
      obtain ⟨b, hb, hnot⟩ := hother
      exact absurd (hdigits b hb) hnot
    | zero => rfl

end IdFault

namespace IdKind

variable {kind : IdKind} {text : String}

theorem isNumeral_spell (n : kind.Numeral) : IsNumeral kind.maxDigits (Hex.spell n.digits) where
  nonempty := by
    obtain ⟨d, hd, -⟩ := n.nonzero
    rw [Hex.utf8_spell, List.length_map]
    exact List.length_pos_of_mem hd
  length_le := by
    rw [Hex.utf8_spell, List.length_map]
    exact n.length_le
  digits := Hex.isDigitByte_spell n.digits
  nonzero := by
    obtain ⟨d, hd, hne⟩ := n.nonzero
    refine ⟨d.toByte, ?_, fun hbyte => hne (d.toByte_eq_iff.1 hbyte)⟩
    rw [Hex.utf8_spell]
    exact List.mem_map_of_mem hd

theorem spell_of_readNumeral {n : kind.Numeral} (h : kind.readNumeral text = .ok n) :
    Hex.spell n.digits = text := by
  unfold readNumeral at h
  split at h
  · contradiction
  split at h
  · contradiction
  split at h
  · contradiction
  · next digits hread =>
    split at h
    · obtain rfl := Except.ok.inj h
      exact Hex.spell_of_read? hread
    · contradiction

theorem fault_of_readNumeral {error : IdError} (h : kind.readNumeral text = .error error) :
    IdFault kind kind.maxDigits text error := by
  unfold readNumeral at h
  split at h
  · next hempty =>
    obtain rfl := Except.error.inj h
    exact .empty (String.isEmpty_iff.1 hempty)
  next hempty =>
  have hne : text ≠ "" := fun heq => hempty (String.isEmpty_iff.2 heq)
  split at h
  · next hlong =>
    obtain rfl := Except.error.inj h
    exact .tooLong hne hlong
  next hshort =>
  have hle : (utf8 text).length ≤ kind.maxDigits := Nat.le_of_not_lt hshort
  split at h
  · next hread =>
    obtain rfl := Except.error.inj h
    refine .notLowerHex hne hle ?_
    by_contra hnone
    obtain ⟨ds, rfl⟩ := Hex.exists_spell fun b hb => by_contra fun hnot => hnone ⟨b, hb, hnot⟩
    rw [Hex.toList_spell, Hex.read?_map_toChar] at hread
    contradiction
  · next ds hread =>
    obtain rfl := Hex.spell_of_read? hread
    split at h
    · contradiction
    · next hzero =>
      obtain rfl := Except.error.inj h
      refine .zero hne hle (Hex.isDigitByte_spell ds) ?_
      rw [Hex.utf8_spell]
      refine List.forall_mem_map.2 fun d hd => d.toByte_eq_iff.2 ?_
      by_contra hd0
      exact hzero ⟨d, hd, hd0⟩

theorem readNumeral_isOk_iff :
    (∃ n, kind.readNumeral text = .ok n) ↔ IsNumeral kind.maxDigits text := by
  constructor
  · rintro ⟨n, hn⟩
    rw [← spell_of_readNumeral hn]
    exact isNumeral_spell n
  · intro hnumeral
    cases hread : kind.readNumeral text with
    | ok n => exact ⟨n, rfl⟩
    | error why => exact absurd hnumeral (fault_of_readNumeral hread).not_isNumeral

theorem readNumeral_eq_error_iff {error : IdError} :
    kind.readNumeral text = .error error ↔ IdFault kind kind.maxDigits text error := by
  refine ⟨fault_of_readNumeral, fun hfault => ?_⟩
  cases hread : kind.readNumeral text with
  | ok n => exact absurd (readNumeral_isOk_iff.1 ⟨n, hread⟩) hfault.not_isNumeral
  | error why => rw [(fault_of_readNumeral hread).unique hfault]

end IdKind

/-- How identifiers are read that have a number of at most so many digits. The width of their text
is found from the length of the text that they are read from. -/
structure ReadsNumerals {Id : Type} [ToString Id] (kind : IdKind) (longest : Nat)
    (width : Nat → Nat) (read : String → Except IdError Id) : Prop where
  accepts : ∀ text, (∃ id, read text = .ok id) ↔ IsNumeral longest text
  refuses : ∀ text error, read text = .error error ↔ IdFault kind longest text error
  padded : ∀ text id, read text = .ok id →
    (toString id).toList = List.leftpad (width text.length) '0' text.toList
  length : ∀ text id, read text = .ok id → (toString id).length = width text.length
  number : ∀ text id, read text = .ok id → Hex.number (toString id) = Hex.number text
  again : ∀ text id, read text = .ok id → read (toString id) = .ok id

namespace ReadsNumerals

variable {Id : Type} [ToString Id] {kind : IdKind} {longest : Nat} {width : Nat → Nat}
  {read : String → Except IdError Id}

/-- Identifiers are read in this way if their texts are those of numerals behind some zeros. -/
theorem of_numerals
    (hok : ∀ text n, kind.readNumeral text = .ok n → ∃ id, read text = .ok id ∧
      toString id = Hex.spell (padDigits (width n.digits.length) n.digits))
    (herror : ∀ text error, kind.readNumeral text = .error error → read text = .error error)
    (hwidth : ∀ n : kind.Numeral, n.digits.length ≤ width n.digits.length)
    (hagain : ∀ id, read (toString id) = .ok id) :
    ReadsNumerals kind kind.maxDigits width read := by
  have hread {text : String} {id : Id} (h : read text = .ok id) :
      ∃ n : kind.Numeral, Hex.spell n.digits = text ∧
        toString id = Hex.spell (padDigits (width n.digits.length) n.digits) := by
    cases hn : kind.readNumeral text with
    | ok n =>
      obtain ⟨id', hid, htext⟩ := hok text n hn
      obtain rfl : id' = id := Except.ok.inj (hid.symm.trans h)
      exact ⟨n, IdKind.spell_of_readNumeral hn, htext⟩
    | error why =>
      rw [herror text why hn] at h
      contradiction
  constructor
  case accepts =>
    intro text
    rw [← IdKind.readNumeral_isOk_iff]
    cases hn : kind.readNumeral text with
    | ok n =>
      obtain ⟨id, hid, -⟩ := hok text n hn
      exact iff_of_true ⟨id, hid⟩ ⟨n, rfl⟩
    | error why => simp [herror text why hn]
  case refuses =>
    intro text error
    rw [← IdKind.readNumeral_eq_error_iff]
    cases hn : kind.readNumeral text with
    | ok n =>
      obtain ⟨id, hid, -⟩ := hok text n hn
      simp [hid]
    | error why => simp [herror text why hn]
  case padded =>
    intro text id h
    obtain ⟨n, rfl, htext⟩ := hread h
    rw [htext, Hex.length_spell, Hex.toList_spell, Hex.toList_spell, padDigits, List.leftpad,
      List.leftpad, List.map_append, List.map_replicate, List.length_map]
    rfl
  case length =>
    intro text id h
    obtain ⟨n, rfl, htext⟩ := hread h
    rw [htext, Hex.length_spell, Hex.length_spell, padDigits, List.length_leftpad]
    exact Nat.max_eq_left (hwidth n)
  case number =>
    intro text id h
    obtain ⟨n, rfl, htext⟩ := hread h
    rw [htext, padDigits, Hex.number_leftpad]
  case again => exact fun text id _ => hagain id

/-- Identifiers are told apart by their numbers and their widths. -/
theorem eq_iff (h : ReadsNumerals kind longest width read) {s t : String} {a b : Id}
    (hs : read s = .ok a) (ht : read t = .ok b) :
    a = b ↔ Hex.number s = Hex.number t ∧ width s.length = width t.length := by
  rw [← h.number s a hs, ← h.number t b ht, ← h.length s a hs, ← h.length t b ht]
  constructor
  · rintro rfl
    exact ⟨rfl, rfl⟩
  · rintro ⟨hnumber, hlength⟩
    have ha := h.again s a hs
    have hb := h.again t b ht
    have hdigits {id : Id} (hid : read (toString id) = .ok id) :
        ∃ ds, Hex.spell ds = toString id :=
      Hex.exists_spell ((h.accepts _).1 ⟨id, hid⟩).digits
    obtain ⟨ds, hds⟩ := hdigits ha
    obtain ⟨es, hes⟩ := hdigits hb
    rw [← hds, ← hes] at hnumber hlength
    rw [Hex.length_spell, Hex.length_spell] at hlength
    have hsame : ds = es := Hex.eq_of_number_eq hlength hnumber
    have htext : toString a = toString b := by rw [← hds, ← hes, hsame]
    exact Except.ok.inj (ha.symm.trans (htext ▸ hb))

end ReadsNumerals

/-- Trace identifiers take the wide form from 17 characters on. -/
theorem TraceId.readsNumerals :
    ReadsNumerals .trace 32 (fun length => if length ≤ 16 then 16 else 32) ofHex? := by
  refine .of_numerals (fun text n hn => ?_) (fun text error h => ?_) (fun n => ?_)
    ofHex?_toString
  · rw [ofHex?, hn]
    exact ⟨_, rfl, rfl⟩
  · rw [ofHex?, h]
    rfl
  · have hlength : n.digits.length ≤ 32 := n.length_le
    split <;> omega

theorem SpanId.readsNumerals : ReadsNumerals .span 16 (fun _ => 16) ofHex? := by
  refine .of_numerals (fun text n hn => ?_) (fun text error h => ?_)
    (fun n => n.length_le) ofHex?_toString
  · rw [ofHex?, hn]
    exact ⟨_, rfl, rfl⟩
  · rw [ofHex?, h]
    rfl

/-- Trace and span identifiers are numbers up to a width. Span identifiers have one width only,
trace identifiers two, so that a short and a long one are different even if they are the same
number. -/
theorem ids_are_numerals :
    ReadsNumerals .trace 32 (fun length => if length ≤ 16 then 16 else 32) TraceId.ofHex? ∧
    ReadsNumerals .span 16 (fun _ => 16) SpanId.ofHex? ∧
    (∀ s t a b, SpanId.ofHex? s = .ok a → SpanId.ofHex? t = .ok b →
      (a = b ↔ Hex.number s = Hex.number t)) ∧
    ∀ s t a b, TraceId.ofHex? s = .ok a → TraceId.ofHex? t = .ok b →
      (a = b ↔ Hex.number s = Hex.number t ∧ (s.length ≤ 16 ↔ t.length ≤ 16)) := by
  refine ⟨TraceId.readsNumerals, SpanId.readsNumerals, ?spans, ?traces⟩
  case spans =>
    intro s t a b hs ht
    rw [SpanId.readsNumerals.eq_iff hs ht]
    exact and_iff_left rfl
  case traces =>
    intro s t a b hs ht
    rw [TraceId.readsNumerals.eq_iff hs ht]
    refine and_congr_right fun _ => ?_
    split <;> split <;> omega

/-- Zeros in front change an identifier only where they make it wide. -/
theorem ids_are_numerals_sample :
    (∃ a b, SpanId.ofHex? "f0" = .ok a ∧ SpanId.ofHex? "0000f0" = .ok b ∧ a = b) ∧
    (∃ a b, TraceId.ofHex? "f0" = .ok a ∧ TraceId.ofHex? "000000000000000f0" = .ok b ∧ a ≠ b) ∧
    SpanId.ofHex? "0" = .error (.zero .span) ∧
    TraceId.ofHex? "é" = .error (.notLowerHex .trace "é") := by
  obtain ⟨htrace, hspan, hspans, htraces⟩ := ids_are_numerals
  obtain ⟨a, ha⟩ := (hspan.accepts "f0").2 ⟨by decide, by decide, by decide +kernel, by decide⟩
  obtain ⟨b, hb⟩ := (hspan.accepts "0000f0").2 ⟨by decide, by decide, by decide +kernel, by decide⟩
  obtain ⟨c, hc⟩ := (htrace.accepts "f0").2 ⟨by decide, by decide, by decide +kernel, by decide⟩
  obtain ⟨d, hd⟩ := (htrace.accepts "000000000000000f0").2
    ⟨by decide, by decide, by decide +kernel, by decide⟩
  have hsame : a = b := (hspans _ _ a b ha hb).2 (by decide)
  refine ⟨⟨a, b, ha, hb, hsame⟩, ⟨c, d, hc, hd, fun heq => ?_⟩, ?_, ?_⟩
  · obtain ⟨-, hwidth⟩ := (htraces _ _ c d hc hd).1 heq
    exact absurd hwidth (by decide)
  · exact (hspan.refuses "0" _).2 (.zero (by decide) (by decide) (by decide +kernel)
      (by decide +kernel))
  · exact (htrace.refuses "é" _).2 (.notLowerHex (by decide) (by decide) (by decide))

end SpanWire
