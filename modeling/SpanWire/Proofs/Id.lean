import SpanWire.Id
import SpanWire.Proofs.Hex

/-!
Identifiers are read back from their texts, which are in normal form already. Their bytes too tell
them apart.
-/
namespace SpanWire

theorem IdKind.readNumeral_spell (kind : IdKind) {digits : List Hex.Digit}
    (hlength : digits.length ≤ kind.maxDigits) (hnonzero : ∃ d ∈ digits, d ≠ Hex.Digit.zero) :
    kind.readNumeral (Hex.spell digits) = .ok ⟨digits, hlength, hnonzero⟩ := by
  have hsize := Hex.utf8ByteSize_spell digits
  have hempty : ¬ (Hex.spell digits).isEmpty = true := by
    obtain ⟨d, hd, -⟩ := hnonzero
    have hpos := List.length_pos_of_mem hd
    rw [String.isEmpty_iff, ← String.utf8ByteSize_eq_zero_iff]
    omega
  rw [readNumeral, if_neg hempty, dif_neg (by omega)]
  split
  · next hread =>
    rw [Hex.toList_spell, Hex.read?_map_toChar] at hread
    contradiction
  · next ds hread =>
    rw [Hex.toList_spell, Hex.read?_map_toChar, Option.some.injEq] at hread
    subst hread
    rw [dif_pos hnonzero]

theorem padDigits_of_length {width : Nat} {digits : List Hex.Digit} (h : digits.length = width) :
    padDigits width digits = digits := by
  rw [padDigits, List.leftpad, h, Nat.sub_self, List.replicate_zero, List.nil_append]

namespace TraceId

theorem ext {a b : TraceId} (h : a.digits = b.digits) : a = b := by
  obtain ⟨digits, _, _⟩ := a
  obtain ⟨digits', _, _⟩ := b
  cases h
  rfl

theorem ofHex?_toString (id : TraceId) : ofHex? (toString id) = .ok id := by
  have hlength : id.digits.length ≤ IdKind.trace.maxDigits := by
    have hwidth := id.width
    rw [IdKind.maxDigits]
    omega
  have hpad : padDigits (IdKind.trace.width id.digits.length) id.digits = id.digits := by
    apply padDigits_of_length
    rw [IdKind.width]
    rcases id.width with h | h <;> rw [h] <;> rfl
  change ofHex? (Hex.spell id.digits) = _
  rw [ofHex?, IdKind.readNumeral_spell .trace hlength id.nonzero]
  exact congrArg Except.ok (ext hpad)

theorem toBytes_inj {a b : TraceId} (h : a.toBytes = b.toBytes) : a = b := by
  have ha := a.width
  have hb := b.width
  exact ext (Hex.toBytes_inj (by omega) (by omega) h)

end TraceId

namespace SpanId

theorem ext {a b : SpanId} (h : a.digits = b.digits) : a = b := by
  obtain ⟨digits, _, _⟩ := a
  obtain ⟨digits', _, _⟩ := b
  cases h
  rfl

theorem ofHex?_toString (id : SpanId) : ofHex? (toString id) = .ok id := by
  have hlength : id.digits.length ≤ IdKind.span.maxDigits := Nat.le_of_eq id.width
  change ofHex? (Hex.spell id.digits) = _
  rw [ofHex?, IdKind.readNumeral_spell .span hlength id.nonzero]
  exact congrArg Except.ok (ext (padDigits_of_length id.width))

theorem toBytes_inj {a b : SpanId} (h : a.toBytes = b.toBytes) : a = b := by
  have ha := a.width
  have hb := b.width
  exact ext (Hex.toBytes_inj (by omega) (by omega) h)

end SpanId

end SpanWire
