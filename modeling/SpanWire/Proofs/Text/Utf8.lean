import Mathlib.Algebra.GroupWithZero.Nat
import SpanWire.Text.Utf8

/-!
Texts in the order of their code points are in the order of their bytes. The bytes of a code point
are its groups of six bits, the first of them behind a mark that tells how many follow.
-/
namespace SpanWire.Text

/-- A number in groups of six bits, so many of them behind the first, the lowest last. -/
def sixBitGroups (mark : Nat) : Nat → Nat → List UInt8
  | 0, v => [UInt8.ofNat (mark + v)]
  | count + 1, v => sixBitGroups mark count (v / 64) ++ [UInt8.ofNat (v % 64 + 128)]

/-- How many groups follow the first. -/
def groupsBehind (v : Nat) : Nat :=
  if v ≤ 127 then 0 else if v ≤ 2047 then 1 else if v ≤ 65535 then 2 else 3

def markOf : Nat → Nat
  | 0 => 0
  | 1 => 192
  | 2 => 224
  | _ => 240

/-- The first byte, as a number. -/
def leadOf (v : Nat) : Nat :=
  markOf (groupsBehind v) + v / 64 ^ groupsBehind v

theorem ofNat_lt_ofNat {m n : Nat} (h : m < n) (hn : n < 256) :
    UInt8.ofNat m < UInt8.ofNat n := by
  rw [UInt8.lt_iff_toNat_lt, UInt8.toNat_ofNat', UInt8.toNat_ofNat', Nat.mod_eq_of_lt hn,
    Nat.mod_eq_of_lt (Nat.lt_trans h hn)]
  exact h

theorem exists_sixBitGroups (mark count v : Nat) :
    ∃ rest, sixBitGroups mark count v = UInt8.ofNat (mark + v / 64 ^ count) :: rest := by
  induction count generalizing v with
  | zero => exact ⟨[], by rw [sixBitGroups, Nat.pow_zero, Nat.div_one]⟩
  | succ count ih =>
    obtain ⟨rest, hrest⟩ := ih (v / 64)
    refine ⟨rest ++ [UInt8.ofNat (v % 64 + 128)], ?_⟩
    rw [sixBitGroups, hrest, List.cons_append, Nat.div_div_eq_div_mul, Nat.pow_succ']

/-- Of numbers in equally many groups the higher groups decide, and if they are the same the
lowest one. -/
theorem sixBitGroups_append_lt {mark count v w : Nat} (h : v < w)
    (hw : mark + w / 64 ^ count < 256) (xs ys : List UInt8) :
    sixBitGroups mark count v ++ xs < sixBitGroups mark count w ++ ys := by
  induction count generalizing v w xs ys with
  | zero =>
    rw [Nat.pow_zero, Nat.div_one] at hw
    exact List.cons_lt_cons_iff.2 (.inl (ofNat_lt_ofNat (by omega) hw))
  | succ count ih =>
    rw [Nat.pow_succ', ← Nat.div_div_eq_div_mul] at hw
    simp only [sixBitGroups, List.append_assoc]
    by_cases hhigh : v / 64 < w / 64
    · exact ih hhigh hw _ _
    · have hsame : v / 64 = w / 64 := by omega
      have hlow : v % 64 + 128 < w % 64 + 128 := by omega
      rw [hsame]
      apply List.append_left_lt
      exact List.cons_lt_cons_iff.2 (.inl (ofNat_lt_ofNat hlow (by omega)))

theorem toNat_lt_limit (c : Char) : c.val.toNat < 1114112 := by
  have hvalid := c.valid
  simp only [UInt32.isValidChar, Nat.isValidChar] at hvalid
  rcases hvalid with hlow | hhigh
  · exact Nat.lt_trans hlow (by decide)
  · exact hhigh.2

theorem utf8EncodeChar_eq (c : Char) :
    String.utf8EncodeChar c =
      sixBitGroups (markOf (groupsBehind c.val.toNat)) (groupsBehind c.val.toNat) c.val.toNat := by
  have hlimit := toNat_lt_limit c
  unfold String.utf8EncodeChar
  generalize c.val.toNat = v at hlimit ⊢
  dsimp only
  unfold groupsBehind
  split
  · rw [markOf, sixBitGroups, Nat.zero_add]
  split
  · have hlead : 192 + v / 64 = v / 64 % 32 + 192 := by omega
    simp only [markOf, sixBitGroups, hlead, List.cons_append, List.nil_append]
  split
  · have hlead : 224 + v / 64 / 64 = v / 4096 % 16 + 224 := by omega
    simp only [markOf, sixBitGroups, hlead, List.cons_append, List.nil_append]
  · have hsecond : v / 64 / 64 = v / 4096 := by omega
    have hlead : 240 + v / 4096 / 64 = v / 262144 % 8 + 240 := by omega
    simp only [markOf, sixBitGroups, hsecond, hlead, List.cons_append, List.nil_append]

/-- The first byte tells how many groups follow. -/
theorem leadOf_cases {v : Nat} (h : v < 1114112) :
    groupsBehind v = 0 ∧ leadOf v < 128 ∨
    groupsBehind v = 1 ∧ 192 ≤ leadOf v ∧ leadOf v < 224 ∨
    groupsBehind v = 2 ∧ 224 ≤ leadOf v ∧ leadOf v < 240 ∨
    groupsBehind v = 3 ∧ 240 ≤ leadOf v ∧ leadOf v < 256 := by
  unfold leadOf groupsBehind
  split
  · refine .inl ⟨rfl, ?_⟩
    change 0 + v / 1 < 128
    omega
  split
  · refine .inr (.inl ⟨rfl, Nat.le_add_right _ _, ?_⟩)
    change 192 + v / 64 < 224
    omega
  split
  · refine .inr (.inr (.inl ⟨rfl, Nat.le_add_right _ _, ?_⟩))
    change 224 + v / 4096 < 240
    omega
  · refine .inr (.inr (.inr ⟨rfl, Nat.le_add_right _ _, ?_⟩))
    change 240 + v / 262144 < 256
    omega

theorem groupsBehind_le {v w : Nat} (h : v < w) : groupsBehind v ≤ groupsBehind w := by
  unfold groupsBehind
  repeat' split
  all_goals omega

theorem exists_utf8EncodeChar (c : Char) :
    ∃ rest, String.utf8EncodeChar c = UInt8.ofNat (leadOf c.val.toNat) :: rest := by
  rw [utf8EncodeChar_eq]
  exact exists_sixBitGroups _ _ _

/-- The bytes of the lesser code point are the lesser ones, whatever follows them. -/
theorem utf8EncodeChar_append_lt {a b : Char} (h : a < b) (xs ys : List UInt8) :
    String.utf8EncodeChar a ++ xs < String.utf8EncodeChar b ++ ys := by
  have hval : a.val.toNat < b.val.toNat := h
  have ha := leadOf_cases (toNat_lt_limit a)
  have hb := leadOf_cases (toNat_lt_limit b)
  by_cases hsame : groupsBehind a.val.toNat = groupsBehind b.val.toNat
  · rw [utf8EncodeChar_eq, utf8EncodeChar_eq, hsame]
    refine sixBitGroups_append_lt hval ?_ xs ys
    change leadOf b.val.toNat < 256
    omega
  -- The first byte decides when more groups follow it.
  · have hmore := groupsBehind_le hval
    have hlead : UInt8.ofNat (leadOf a.val.toNat) < UInt8.ofNat (leadOf b.val.toNat) :=
      ofNat_lt_ofNat (by omega) (by omega)
    obtain ⟨as, has⟩ := exists_utf8EncodeChar a
    obtain ⟨bs, hbs⟩ := exists_utf8EncodeChar b
    rw [has, hbs]
    exact List.cons_lt_cons_iff.2 (.inl hlead)

theorem flatMap_utf8EncodeChar_lt {as bs : List Char} (h : as < bs) :
    as.flatMap String.utf8EncodeChar < bs.flatMap String.utf8EncodeChar := by
  induction as generalizing bs with
  | nil =>
    cases bs with
    | nil => exact absurd h (List.lt_irrefl _)
    | cons b bs =>
      obtain ⟨rest, hrest⟩ := exists_utf8EncodeChar b
      rw [List.flatMap_nil, List.flatMap_cons, hrest]
      exact List.nil_lt_cons _ _
  | cons a as ih =>
    cases bs with
    | nil => exact absurd h (List.not_lt_nil _)
    | cons b bs =>
      rcases List.cons_lt_cons_iff.1 h with hab | ⟨rfl, hrest⟩
      · exact utf8EncodeChar_append_lt hab _ _
      · exact List.append_left_lt (ih hrest)

theorem utf8_eq (s : String) : utf8 s = s.toList.flatMap String.utf8EncodeChar := by
  rw [utf8, ← String.utf8Encode_toList, List.utf8Encode, List.data_toByteArray]

/-- What is read as a text are the bytes of that text. -/
theorem eq_of_fromUTF8? {bytes : ByteArray} {s : String} (h : String.fromUTF8? bytes = some s) :
    bytes = s.toByteArray := by
  unfold String.fromUTF8? at h
  split at h
  · obtain rfl := Option.some.inj h
    rfl
  · contradiction

/-- The order of texts is the order of their bytes. -/
theorem utf8_lt_iff {s t : String} : utf8 s < utf8 t ↔ s < t := by
  have hmono : ∀ {s t : String}, s < t → utf8 s < utf8 t := by
    intro s t h
    rw [utf8_eq, utf8_eq]
    exact flatMap_utf8EncodeChar_lt (String.lt_iff.1 h)
  refine ⟨fun h => ?_, hmono⟩
  rcases Std.lt_trichotomy s t with hlt | rfl | hgt
  · exact hlt
  · exact absurd h (List.lt_irrefl _)
  · exact absurd (hmono hgt) (List.lt_asymm h)

end SpanWire.Text
