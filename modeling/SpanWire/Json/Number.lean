import SpanWire.Json.Binary64
import SpanWire.Text.Decimal

/-! Numbers as JSON writes them, and the values they have. -/
namespace SpanWire.Json

open Text (isDigit digitValue natBelow?)

/-- Why a text breaks the grammar: it stops too early, or a character cannot stand where it does. -/
inductive Fault
  | ended
  | malformed
  deriving DecidableEq, Repr

/-- The value of a number. Fractions are never wanted, so their values are not kept. -/
inductive Number
  | integer (n : Int)
  | float
  deriving DecidableEq, Repr

structure Exponent where
  negative : Bool
  digits : List Char
  deriving DecidableEq, Repr

/-- No number is so long that its digits make up for such an exponent. -/
def maxExponent : Nat := 1 <<< 31

def Exponent.value (e : Exponent) : Int :=
  let size := (natBelow? maxExponent e.digits).getD maxExponent
  if e.negative then -(size : Int) else size

/-- A number as written. The fraction is empty when no point is written. -/
structure Numeral where
  negative : Bool
  whole : List Char
  fraction : List Char
  exponent : Option Exponent
  deriving DecidableEq, Repr

namespace Numeral

/-- One digit at least, and all that follow it. -/
def scanDigits (s : List Char) : Except Fault (List Char × List Char) :=
  match s with
  | [] => .error .ended
  | c :: _ =>
    if isDigit c then .ok (s.takeWhile isDigit, s.dropWhile isDigit) else .error .malformed

/-- No zero stands in front of other digits. -/
def scanWhole (s : List Char) : Except Fault (List Char × List Char) := do
  let (digits, rest) ← scanDigits s
  if digits.head? = some '0' ∧ digits.length ≠ 1 then .error .malformed else .ok (digits, rest)

def scanFraction (s : List Char) : Except Fault (List Char × List Char) :=
  match s with
  | '.' :: rest => scanDigits rest
  | _ => .ok ([], s)

/-- Whether a minus sign stands first, and what follows it. -/
def scanMinus : List Char → Bool × List Char
  | '-' :: rest => (true, rest)
  | s => (false, s)

/-- An exponent may also carry a plus sign. -/
def scanSign : List Char → Bool × List Char
  | '+' :: rest => (false, rest)
  | s => scanMinus s

def scanExponent (s : List Char) : Except Fault (Option Exponent × List Char) :=
  match s with
  | [] => .ok (none, [])
  | c :: rest =>
    if c = 'e' ∨ c = 'E' then do
      let sign := scanSign rest
      let (digits, rest) ← scanDigits sign.2
      return (some ⟨sign.1, digits⟩, rest)
    else .ok (none, s)

/-- Reads the number a text starts with, and what follows it. -/
def scan (s : List Char) : Except Fault (Numeral × List Char) := do
  let sign := scanMinus s
  let (whole, s) ← scanWhole sign.2
  let (fraction, s) ← scanFraction s
  let (exponent, s) ← scanExponent s
  return (⟨sign.1, whole, fraction, exponent⟩, s)

/-- Adds digits to a significand until one no longer fits 64 bits. Gives the significand and how
many digits went into it. -/
def absorb (significand count : Nat) : List Char → Nat × Nat
  | [] => (significand, count)
  | c :: cs =>
    let next := 10 * significand + digitValue c
    if next < UInt64.size then absorb next (count + 1) cs else (significand, count)

/-- Digits of the whole part that no longer fit raise the exponent, those of the fraction are
left out. -/
def isFinite (n : Numeral) : Bool :=
  let (significand, usedWhole) := absorb 0 0 n.whole
  let (significand, usedFraction) := absorb significand 0 n.fraction
  let written := match n.exponent with
    | none => 0
    | some e => e.value
  Binary64.isFinite significand ((n.whole.length - usedWhole : Nat) - usedFraction + written)

/-- The integer written, unless it is minus zero or needs more than 64 bits. -/
def integer? (n : Numeral) : Option Int :=
  if n.fraction = [] ∧ n.exponent = none then
    match natBelow? UInt64.size n.whole with
    | none => none
    | some magnitude =>
      if !n.negative then some magnitude
      else if 0 < magnitude ∧ magnitude ≤ 1 <<< 63 then some (-magnitude)
      else none
  else none

/-- A number too large for binary64 has no value. -/
def value (n : Numeral) : Except Fault Number :=
  match n.integer? with
  | some i => .ok (.integer i)
  | none => if n.isFinite then .ok .float else .error .malformed

theorem length_dropWhile_le {α : Type} (p : α → Bool) (s : List α) :
    (s.dropWhile p).length ≤ s.length :=
  (List.dropWhile_sublist p).length_le

theorem scanDigits_shortens {s digits rest : List Char} (h : scanDigits s = .ok (digits, rest)) :
    rest.length < s.length := by
  match s, h with
  | c :: cs, h =>
    simp only [scanDigits] at h
    split at h
    · next hc =>
      simp only [List.dropWhile_cons_of_pos hc, Except.ok.injEq, Prod.mk.injEq] at h
      have := length_dropWhile_le isDigit cs
      simp only [← h.2, List.length_cons]
      omega
    · contradiction

theorem scanWhole_shortens {s digits rest : List Char} (h : scanWhole s = .ok (digits, rest)) :
    rest.length < s.length := by
  unfold scanWhole at h
  cases hd : scanDigits s with
  | error f => simp [hd, bind, Except.bind] at h
  | ok p =>
    simp only [hd, bind, Except.bind] at h
    split at h
    · contradiction
    · simp only [Except.ok.injEq, Prod.mk.injEq] at h
      exact h.2 ▸ scanDigits_shortens hd

theorem scanFraction_shortens {s digits rest : List Char}
    (h : scanFraction s = .ok (digits, rest)) : rest.length ≤ s.length := by
  unfold scanFraction at h
  split at h
  · have := scanDigits_shortens h
    simp only [List.length_cons]
    omega
  · simp only [Except.ok.injEq, Prod.mk.injEq] at h
    simp [h.2]

theorem length_scanMinus_le (s : List Char) : (scanMinus s).2.length ≤ s.length := by
  unfold scanMinus
  split <;> simp

theorem length_scanSign_le (s : List Char) : (scanSign s).2.length ≤ s.length := by
  unfold scanSign
  split
  · simp
  · exact length_scanMinus_le s

theorem scanExponent_shortens {s rest : List Char} {e : Option Exponent}
    (h : scanExponent s = .ok (e, rest)) : rest.length ≤ s.length := by
  match s, h with
  | [], h => simp_all [scanExponent]
  | c :: cs, h =>
    simp only [scanExponent] at h
    split at h
    · cases hd : scanDigits (scanSign cs).2 with
      | error f => simp [hd, bind, Except.bind] at h
      | ok p =>
        simp only [hd, bind, Except.bind, pure, Except.pure, Except.ok.injEq, Prod.mk.injEq] at h
        have := scanDigits_shortens hd
        have := length_scanSign_le cs
        simp only [← h.2, List.length_cons]
        omega
    · simp only [Except.ok.injEq, Prod.mk.injEq] at h
      simp [← h.2]

theorem scan_shortens {s rest : List Char} {n : Numeral} (h : scan s = .ok (n, rest)) :
    rest.length < s.length := by
  unfold scan at h
  cases hw : scanWhole (scanMinus s).2 with
  | error f => simp [hw, bind, Except.bind] at h
  | ok w =>
    cases hf : scanFraction w.2 with
    | error f => simp [hw, hf, bind, Except.bind] at h
    | ok f =>
      cases he : scanExponent f.2 with
      | error g => simp [hw, hf, he, bind, Except.bind] at h
      | ok e =>
        simp only [hw, hf, he, bind, Except.bind, pure, Except.pure, Except.ok.injEq,
          Prod.mk.injEq] at h
        have := scanWhole_shortens hw
        have := scanFraction_shortens hf
        have := scanExponent_shortens he
        have := length_scanMinus_le s
        rw [← h.2]
        omega

end Numeral

end SpanWire.Json
