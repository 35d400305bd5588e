import Mathlib.Algebra.GroupWithZero.Nat
import SpanWire.Wire.Varint

/-! Base-128 numbers over the naturals: their bytes, how many there are, and a reader for them. -/
namespace SpanWire.Wire

/-- The bytes of a number in groups of seven bits, with no regard to its width. -/
def leb128 (n : Nat) : List UInt8 :=
  if n < 128 then [UInt8.ofNat n] else UInt8.ofNat (n % 128 + 128) :: leb128 (n / 128)

/-- Reads one number of at most `limit` bytes, and gives what follows it. -/
def takeLeb128 : Nat → List UInt8 → Option (Nat × List UInt8)
  | 0, _ => none
  | _, [] => none
  | limit + 1, b :: bs =>
    if b.toNat < 128 then some (b.toNat, bs)
    else (takeLeb128 limit bs).map fun (n, rest) => (b.toNat - 128 + 128 * n, rest)

/-- A number of 64 bits takes ten bytes at most. -/
def takeVarint (bs : List UInt8) : Option (UInt64 × List UInt8) :=
  match takeLeb128 10 bs with
  | some (n, rest) => if n < 2 ^ 64 then some (UInt64.ofNat n, rest) else none
  | none => none

theorem leb128_of_lt {n : Nat} (h : n < 128) : leb128 n = [UInt8.ofNat n] := by
  rw [leb128, if_pos h]

theorem leb128_of_le {n : Nat} (h : 128 ≤ n) :
    leb128 n = UInt8.ofNat (n % 128 + 128) :: leb128 (n / 128) := by
  rw [leb128, if_neg (by omega)]

theorem low_group (v : UInt64) :
    v.toUInt8 &&& 0x7f ||| 0x80 = UInt8.ofNat (v.toNat % 128 + 128) := by
  have hlow : (v.toUInt8 &&& 0x7f).toNat = v.toNat % 128 := by
    have h := Nat.and_two_pow_sub_one_eq_mod (v.toNat % 256) 7
    rw [UInt8.toNat_and, UInt64.toNat_toUInt8]
    change v.toNat % 2 ^ 8 &&& 127 = _
    simp only [Nat.reducePow, Nat.reduceSub] at h ⊢
    omega
  have hor := Nat.two_pow_add_eq_or_of_lt (i := 7) (b := v.toNat % 128) (by omega) 1
  apply UInt8.toNat_inj.1
  rw [UInt8.toNat_or, hlow, UInt8.toNat_ofNat']
  change v.toNat % 128 ||| 128 = _
  simp only [Nat.reducePow, Nat.mul_one] at hor ⊢
  rw [Nat.or_comm, ← hor]
  omega

theorem varint_eq_leb128 (v : UInt64) : varint v = leb128 v.toNat := by
  induction h : v.toNat using Nat.strongRecOn generalizing v with
  | ind n ih =>
    subst h
    rw [varint]
    by_cases hv : v < 0x80
    · have hn : v.toNat < 128 := by simpa [UInt64.lt_iff_toNat_lt] using hv
      rw [if_pos hv, leb128_of_lt hn]
      rfl
    · have hn : 128 ≤ v.toNat := by simpa [UInt64.lt_iff_toNat_lt] using hv
      have hshift : (v >>> 7).toNat = v.toNat / 128 := by
        simp [UInt64.toNat_shiftRight, Nat.shiftRight_eq_div_pow]
      rw [if_neg hv, leb128_of_le hn, low_group, ih _ (by omega) _ hshift]

theorem varint_ofNat {n : Nat} (h : n < 2 ^ 64) : varint (UInt64.ofNat n) = leb128 n := by
  rw [varint_eq_leb128, UInt64.toNat_ofNat_of_lt' h]

theorem length_leb128_pos (n : Nat) : 0 < (leb128 n).length := by
  rw [leb128]
  split <;> simp

theorem varint_ne_nil (v : UInt64) : varint v ≠ [] := by
  rw [varint_eq_leb128]
  exact List.ne_nil_of_length_pos (length_leb128_pos _)

/-- A number takes as many bytes as it has groups of seven bits. -/
theorem length_leb128_le_iff (n k : Nat) : (leb128 n).length ≤ k + 1 ↔ n < 2 ^ (7 * (k + 1)) := by
  induction k generalizing n with
  | zero =>
    by_cases h : n < 128
    · simpa [leb128_of_lt h] using h
    · have := length_leb128_pos (n / 128)
      rw [leb128_of_le (Nat.le_of_not_lt h), List.length_cons]
      omega
  | succ k ih =>
    have hpow : 2 ^ (7 * (k + 1 + 1)) = 128 * 2 ^ (7 * (k + 1)) := by
      rw [show 7 * (k + 1 + 1) = 7 + 7 * (k + 1) by omega, Nat.pow_add]
    have hpos : 1 ≤ 2 ^ (7 * (k + 1)) := Nat.one_le_two_pow
    by_cases h : n < 128
    · simp only [leb128_of_lt h, List.length_singleton]
      omega
    · rw [leb128_of_le (Nat.le_of_not_lt h), List.length_cons, hpow, Nat.add_le_add_iff_right, ih]
      omega

theorem length_leb128_le {m n : Nat} (h : m ≤ n) : (leb128 m).length ≤ (leb128 n).length := by
  obtain ⟨k, hk⟩ := Nat.exists_eq_add_of_lt (length_leb128_pos n)
  rw [Nat.zero_add] at hk
  rw [hk, length_leb128_le_iff]
  exact Nat.lt_of_le_of_lt h ((length_leb128_le_iff n k).1 (Nat.le_of_eq hk))

private theorem varintSize_le_iff (v : UInt64) (k : Nat) :
    varintSize v ≤ k + 1 ↔ v.toNat < 2 ^ (7 * (k + 1)) := by
  have hone : 1 < 2 ^ (7 * (k + 1)) := Nat.one_lt_two_pow (by omega)
  have hor : (v ||| 1).toNat = v.toNat ||| 1 := by simp
  have hne : v.toNat ||| 1 ≠ 0 := by simp
  have hlt : v.toNat ||| 1 < 2 ^ (7 * (k + 1)) ↔ v.toNat < 2 ^ (7 * (k + 1)) :=
    ⟨fun h => Nat.lt_of_le_of_lt Nat.left_le_or h, fun h => Nat.or_lt_two_pow h hone⟩
  rw [varintSize, hor, ← hlt, ← Nat.log2_lt hne]
  omega

theorem varintSize_pos (v : UInt64) : 0 < varintSize v := by
  rw [varintSize]
  omega

/-- The bytes of a number are as many as its length in bits foretells. -/
theorem length_varint (v : UInt64) : (varint v).length = varintSize v := by
  have hpos := varintSize_pos v
  have hiff : ∀ k, (varint v).length ≤ k + 1 ↔ varintSize v ≤ k + 1 := by
    intro k
    rw [varint_eq_leb128, length_leb128_le_iff, varintSize_le_iff]
  have hlen := List.length_pos_iff.2 (varint_ne_nil v)
  have h₁ := (hiff ((varint v).length - 1)).1 (by omega)
  have h₂ := (hiff (varintSize v - 1)).2 (by omega)
  omega

theorem length_leb128_toNat_le (v : UInt64) : (leb128 v.toNat).length ≤ 10 :=
  (length_leb128_le_iff _ 9).2 (Nat.lt_of_lt_of_le v.toNat_lt (by decide))

theorem takeLeb128_append {limit : Nat} (n : Nat) (rest : List UInt8)
    (h : (leb128 n).length ≤ limit) : takeLeb128 limit (leb128 n ++ rest) = some (n, rest) := by
  induction limit generalizing n with
  | zero =>
    have := length_leb128_pos n
    omega
  | succ limit ih =>
    by_cases hn : n < 128
    · have hb : (UInt8.ofNat n).toNat = n := by
        rw [UInt8.toNat_ofNat']
        omega
      simp [leb128_of_lt hn, takeLeb128, hb, hn]
    · rw [leb128_of_le (Nat.le_of_not_lt hn), List.length_cons] at h
      have hb : (UInt8.ofNat (n % 128 + 128)).toNat = n % 128 + 128 := by
        rw [UInt8.toNat_ofNat']
        omega
      rw [leb128_of_le (Nat.le_of_not_lt hn), List.cons_append, takeLeb128, hb,
        if_neg (by omega), ih _ (by omega)]
      simp only [Option.map_some, Option.some.injEq, Prod.mk.injEq, and_true]
      omega

theorem takeVarint_append (v : UInt64) (rest : List UInt8) :
    takeVarint (leb128 v.toNat ++ rest) = some (v, rest) := by
  rw [takeVarint, takeLeb128_append _ _ (length_leb128_toNat_le v)]
  simp [v.toNat_lt]

theorem takeVarint_append_of_lt {n : Nat} (h : n < 2 ^ 64) (rest : List UInt8) :
    takeVarint (leb128 n ++ rest) = some (UInt64.ofNat n, rest) := by
  simpa only [UInt64.toNat_ofNat_of_lt' h] using takeVarint_append (UInt64.ofNat n) rest

/-- Whatever bytes are read as a number, they are no fewer than its own. -/
theorem length_leb128_of_takeLeb128 {limit n : Nat} {bs rest : List UInt8}
    (h : takeLeb128 limit bs = some (n, rest)) :
    (leb128 n).length + rest.length ≤ bs.length := by
  induction limit generalizing bs n with
  | zero => simp [takeLeb128] at h
  | succ limit ih =>
    cases bs with
    | nil => simp [takeLeb128] at h
    | cons b bs =>
      rw [takeLeb128] at h
      split at h
      · next hlast =>
        obtain ⟨rfl, rfl⟩ := Prod.mk.inj (Option.some.inj h)
        rw [leb128_of_lt hlast, List.length_singleton, List.length_cons]
        exact Nat.le_of_eq (Nat.add_comm ..)
      · next hmore =>
        obtain ⟨⟨m, r⟩, hr, he⟩ := Option.map_eq_some_iff.1 h
        obtain ⟨rfl, rfl⟩ := Prod.mk.inj he
        have hrest := ih hr
        have hpos := length_leb128_pos m
        have hbyte := b.toNat_lt
        rw [List.length_cons]
        by_cases hn : b.toNat - 128 + 128 * m < 128
        · rw [leb128_of_lt hn, List.length_singleton]
          omega
        · have hdiv : (b.toNat - 128 + 128 * m) / 128 = m := by omega
          rw [leb128_of_le (Nat.le_of_not_lt hn), hdiv, List.length_cons]
          omega

theorem takeLeb128_shortens {limit n : Nat} {bs rest : List UInt8}
    (h : takeLeb128 limit bs = some (n, rest)) : rest.length < bs.length := by
  have hpos := length_leb128_pos n
  have hle := length_leb128_of_takeLeb128 h
  omega

theorem takeVarint_shortens {v : UInt64} {bs rest : List UInt8}
    (h : takeVarint bs = some (v, rest)) : rest.length < bs.length := by
  rw [takeVarint] at h
  split at h
  · next n r hr =>
    split at h
    · simp only [Option.some.injEq, Prod.mk.injEq] at h
      exact h.2 ▸ takeLeb128_shortens hr
    · contradiction
  · contradiction

end SpanWire.Wire
