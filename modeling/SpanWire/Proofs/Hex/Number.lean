import Mathlib.Data.Nat.Digits.Defs
import SpanWire.Proofs.Hex
import SpanWire.Proofs.Text.Utf8

/-!
Texts of digits by their bytes, and the number that such a text denotes. Of texts of the same length
no two denote the same number.
-/
namespace SpanWire.Hex

/-- Whether a byte is one of `0` to `9` or of `a` to `f`. -/
def IsDigitByte (b : UInt8) : Prop :=
  0x30 ≤ b ∧ b ≤ 0x39 ∨ 0x61 ≤ b ∧ b ≤ 0x66

instance (b : UInt8) : Decidable (IsDigitByte b) :=
  inferInstanceAs (Decidable (_ ∨ _))

def byteValue (b : UInt8) : Nat :=
  if b ≤ 0x39 then (b - 0x30).toNat else (b - 0x57).toNat

/-- The number that a text denotes. Its last byte counts ones. -/
def number (text : String) : Nat :=
  Nat.ofDigits 16 ((Text.utf8 text).reverse.map byteValue)

namespace Digit

def toByte (d : Digit) : UInt8 :=
  UInt8.ofNat d.toChar.toNat

theorem utf8EncodeChar_toChar (d : Digit) : String.utf8EncodeChar d.toChar = [d.toByte] := by
  revert d
  decide

theorem isDigitByte_toByte (d : Digit) : IsDigitByte d.toByte := by
  revert d
  decide

theorem byteValue_toByte (d : Digit) : byteValue d.toByte = d.val := by
  revert d
  decide

theorem toByte_eq_iff (d : Digit) : d.toByte = 0x30 ↔ d = zero := by
  revert d
  decide

theorem exists_toChar {c : Char}
    (h : 48 ≤ c.toNat ∧ c.toNat ≤ 57 ∨ 97 ≤ c.toNat ∧ c.toNat ≤ 102) :
    ∃ d : Digit, d.toChar = c := by
  rcases h with ⟨hlow, hhigh⟩ | ⟨hlow, hhigh⟩
  · refine ⟨⟨c.toNat - 48, by omega⟩, ?_⟩
    rw [toChar, if_pos (by dsimp only; omega)]
    dsimp only
    rw [Nat.add_sub_of_le hlow, c.ofNat_toNat]
  · refine ⟨⟨c.toNat - 87, by omega⟩, ?_⟩
    rw [toChar, if_neg (by dsimp only; omega)]
    dsimp only
    rw [Nat.add_sub_of_le (by omega), c.ofNat_toNat]

theorem toChar_of_ofChar? {c : Char} {d : Digit} (h : ofChar? c = some d) : d.toChar = c := by
  have hrange : 48 ≤ c.toNat ∧ c.toNat ≤ 57 ∨ 97 ≤ c.toNat ∧ c.toNat ≤ 102 := by
    unfold ofChar? at h
    split at h
    · next hdecimal => exact .inl hdecimal
    · split at h
      · next hletter => exact .inr hletter
      · contradiction
  obtain ⟨e, rfl⟩ := exists_toChar hrange
  rw [ofChar?_toChar] at h
  rw [Option.some.inj h]

/-- A first byte below 128 is the whole character, so no other character starts like a digit. -/
theorem exists_toChar_of_bytes {c : Char} (h : ∀ b ∈ String.utf8EncodeChar c, IsDigitByte b) :
    ∃ d : Digit, d.toChar = c := by
  obtain ⟨rest, hrest⟩ := Text.exists_utf8EncodeChar c
  have hlead := Text.leadOf_cases (Text.toNat_lt_limit c)
  have hlt : Text.leadOf c.val.toNat < 256 := by omega
  have hfirst : 48 ≤ Text.leadOf c.val.toNat ∧ Text.leadOf c.val.toNat ≤ 57 ∨
      97 ≤ Text.leadOf c.val.toNat ∧ Text.leadOf c.val.toNat ≤ 102 := by
    have hbyte := h (UInt8.ofNat (Text.leadOf c.val.toNat)) (hrest ▸ List.mem_cons_self)
    simp only [IsDigitByte, UInt8.le_iff_toNat_le, UInt8.toNat_ofNat',
      Nat.mod_eq_of_lt hlt] at hbyte
    exact hbyte
  have hgroups : Text.groupsBehind c.val.toNat = 0 := by omega
  have hcode : Text.leadOf c.val.toNat = c.toNat := by
    rw [Text.leadOf, hgroups, Text.markOf, Nat.zero_add, Nat.pow_zero, Nat.div_one]
    rfl
  rw [hcode] at hfirst
  exact exists_toChar hfirst

end Digit

theorem map_toChar_of_read? {cs : List Char} {ds : List Digit} (h : read? cs = some ds) :
    ds.map Digit.toChar = cs := by
  induction cs generalizing ds with
  | nil =>
    obtain rfl := Option.some.inj h
    rfl
  | cons c cs ih =>
    simp only [read?, Option.bind_eq_bind, Option.bind_eq_some_iff, Option.some.injEq] at h
    obtain ⟨d, hd, rest, hrest, rfl⟩ := h
    rw [List.map_cons, Digit.toChar_of_ofChar? hd, ih hrest]

/-- Digits that are read spell what they were read from. -/
theorem spell_of_read? {text : String} {ds : List Digit} (h : read? text.toList = some ds) :
    spell ds = text := by
  rw [spell, map_toChar_of_read? h, String.ofList_toList]

theorem utf8_spell (ds : List Digit) : Text.utf8 (spell ds) = ds.map Digit.toByte := by
  rw [Text.utf8_eq, toList_spell, List.flatMap_map]
  simp only [Digit.utf8EncodeChar_toChar]
  exact List.map_eq_flatMap.symm

theorem isDigitByte_spell (ds : List Digit) : ∀ b ∈ Text.utf8 (spell ds), IsDigitByte b := by
  rw [utf8_spell]
  exact List.forall_mem_map.2 fun d _ => d.isDigitByte_toByte

/-- A text is spelled by digits if its bytes look like it. -/
theorem exists_spell {text : String} (h : ∀ b ∈ Text.utf8 text, IsDigitByte b) :
    ∃ ds, spell ds = text := by
  have hchars : ∀ cs : List Char, (∀ c ∈ cs, ∀ b ∈ String.utf8EncodeChar c, IsDigitByte b) →
      ∃ ds : List Digit, ds.map Digit.toChar = cs := by
    intro cs
    induction cs with
    | nil => exact fun _ => ⟨[], rfl⟩
    | cons c cs ih =>
      intro h
      obtain ⟨hc, hcs⟩ := List.forall_mem_cons.1 h
      obtain ⟨d, rfl⟩ := Digit.exists_toChar_of_bytes hc
      obtain ⟨ds, rfl⟩ := ih hcs
      exact ⟨d :: ds, rfl⟩
  rw [Text.utf8_eq] at h
  obtain ⟨ds, hds⟩ := hchars text.toList fun c hc b hb => h b (List.mem_flatMap.2 ⟨c, hc, hb⟩)
  exact ⟨ds, by rw [spell, hds, String.ofList_toList]⟩

theorem number_spell (ds : List Digit) :
    number (spell ds) = Nat.ofDigits 16 (ds.reverse.map Fin.val) := by
  rw [number, utf8_spell, ← List.map_reverse, List.map_map]
  congr 1
  exact List.map_congr_left fun d _ => d.byteValue_toByte

/-- Zeros in front do not count. -/
theorem number_leftpad (width : Nat) (ds : List Digit) :
    number (spell (List.leftpad width Digit.zero ds)) = number (spell ds) := by
  rw [number_spell, number_spell, List.leftpad, List.reverse_append, List.map_append,
    List.reverse_replicate, List.map_replicate]
  exact Nat.ofDigits_append_replicate_zero _

theorem eq_of_number_eq {ds es : List Digit} (hlength : ds.length = es.length)
    (hnumber : number (spell ds) = number (spell es)) : ds = es := by
  rw [number_spell, number_spell] at hnumber
  have hsmall (xs : List Digit) : ∀ v ∈ xs.reverse.map Fin.val, v < 16 :=
    List.forall_mem_map.2 fun d _ => d.isLt
  have hvalues := Nat.ofDigits_inj_of_len_eq (by decide) (by simpa using hlength) (hsmall ds)
    (hsmall es) hnumber
  exact List.reverse_inj.1 ((List.map_inj_right fun _ _ => Fin.ext).1 hvalues)

end SpanWire.Hex
