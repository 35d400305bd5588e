import Mathlib.Algebra.GroupWithZero.Nat
import SpanWire.Text.Decimal

/-! The digits of a number, in any radix, and the number they are read as. -/
namespace SpanWire.Text

/-- A number has one digit, or the digits of its front and a last one. -/
theorem toDigits_induction {radix : Nat} (hradix : 1 < radix) {motive : Nat → List Char → Prop}
    (one : ∀ d < radix, motive d [d.digitChar])
    (more : ∀ n d, 0 < n → d < radix → motive n (Nat.toDigits radix n) →
      motive (radix * n + d) (Nat.toDigits radix n ++ [d.digitChar])) (n : Nat) :
    motive n (Nat.toDigits radix n) := by
  induction n using Nat.strongRecOn with
  | ind n ih =>
    by_cases hn : n < radix
    · rw [Nat.toDigits_of_lt_base hn]
      exact one n hn
    · have hle : radix ≤ n := Nat.le_of_not_lt hn
      have hfront : 0 < n / radix := Nat.div_pos hle (by omega)
      have hlast : n % radix < radix := Nat.mod_lt n (by omega)
      have h := more _ _ hfront hlast (ih (n / radix) (Nat.div_lt_self (by omega) hradix))
      rwa [Nat.div_add_mod, ← Nat.toDigits_of_base_le hradix hle] at h

theorem foldl_toDigits {radix : Nat} (hradix : 1 < radix) (value : Char → Nat)
    (hvalue : ∀ d < radix, value d.digitChar = d) (n : Nat) :
    (Nat.toDigits radix n).foldl (fun m c => radix * m + value c) 0 = n := by
  induction n using toDigits_induction hradix with
  | one d hd => simp [hvalue d hd]
  | more n d _ hd ih => rw [List.foldl_append, ih, List.foldl_cons, List.foldl_nil, hvalue d hd]

theorem forall_mem_toDigits {radix : Nat} (hradix : 1 < radix) {p : Char → Prop}
    (h : ∀ d < radix, p d.digitChar) (n : Nat) : ∀ c ∈ Nat.toDigits radix n, p c := by
  induction n using toDigits_induction hradix with
  | one d hd =>
    intro c hc
    rw [List.mem_singleton.1 hc]
    exact h d hd
  | more n d _ hd ih =>
    intro c hc
    rcases List.mem_append.1 hc with hc | hc
    · exact ih c hc
    · rw [List.mem_singleton.1 hc]
      exact h d hd

/-- Only zero starts with a zero. -/
theorem head?_toDigits_ne {radix : Nat} (hradix : 1 < radix) {n : Nat} (h : 0 < n) :
    (Nat.toDigits radix n).head? ≠ some '0' := by
  induction n using toDigits_induction hradix with
  | one d _ =>
    intro hd
    rw [List.head?_cons, Option.some.injEq, Nat.digitChar_eq_zero] at hd
    omega
  | more n d hn _ ih =>
    cases hds : Nat.toDigits radix n with
    | nil => exact absurd hds Nat.toDigits_ne_nil
    | cons c cs =>
      rw [hds] at ih
      exact ih hn

/-- No zero stands in front of other digits. -/
theorem toDigits_no_leading_zero {radix : Nat} (hradix : 1 < radix) (n : Nat) :
    ¬ ((Nat.toDigits radix n).head? = some '0' ∧ (Nat.toDigits radix n).length ≠ 1) := by
  rintro ⟨hhead, hlength⟩
  rcases Nat.eq_zero_or_pos n with rfl | hn
  · exact hlength (by rw [Nat.toDigits_zero]; rfl)
  · exact head?_toDigits_ne hradix hn hhead

/-- What all of the first part fulfills and the next character does not ends there. -/
theorem takeWhile_append_of_stop {p : Char → Bool} {s rest : List Char} (hs : ∀ c ∈ s, p c = true)
    (hrest : ∀ c ∈ rest.head?, p c = false) :
    (s ++ rest).takeWhile p = s ∧ (s ++ rest).dropWhile p = rest := by
  rw [List.takeWhile_append_of_pos hs, List.dropWhile_append_of_pos hs]
  cases rest with
  | nil => simp
  | cons c cs =>
    have hc : p c = false := hrest c rfl
    simp [hc]

theorem isDigit_digitChar {d : Nat} (h : d < 10) : isDigit d.digitChar = true := by
  revert d
  decide

theorem digitValue_digitChar {d : Nat} (h : d < 10) : digitValue d.digitChar = d := by
  revert d
  decide

theorem natOfDigits_toDigits (n : Nat) : natOfDigits (Nat.toDigits 10 n) = n :=
  foldl_toDigits (by decide) digitValue (fun _ => digitValue_digitChar) n

end SpanWire.Text
