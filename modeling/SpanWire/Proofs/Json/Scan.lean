import SpanWire.Json.Token
import SpanWire.Json.Value
import SpanWire.Proofs.Text.Digits

/-! What is written for texts and numbers is scanned again, whatever follows it. -/
namespace SpanWire.Json

/-- The piece that a character is read as. Control characters without a letter of their own are
read as units. -/
def Piece.ofChar (c : Char) : Piece :=
  if c.toNat < 32 ∧ c ∉ ['\x08', '\x0c', '\n', '\r', '\t'] then .unit c.toNat else .char c

namespace Quotation

theorem unitOfDigits?_digitsOfByte {n : Nat} (h : n < 32) :
    ∃ c d, (Hex.digitsOfByte (UInt8.ofNat n)).map Hex.Digit.toChar = [c, d] ∧
      unitOfDigits? '0' '0' c d = some n := by
  have hall : ∀ n < 32,
      unitOfDigits? '0' '0' (Hex.Digit.toChar (Fin.ofNat 16 ((UInt8.ofNat n).toNat / 16)))
        (Hex.Digit.toChar (Fin.ofNat 16 ((UInt8.ofNat n).toNat % 16))) = some n := by
    decide
  exact ⟨_, _, rfl, hall n h⟩

theorem scan_char (seen : List Piece) {c : Char} (hquote : c ≠ '"') (hbackslash : c ≠ '\\')
    (h : ¬ c.toNat < 32) (rest : List Char) :
    scan seen (c :: rest) = scan (.char c :: seen) rest := by
  rw [scan.eq_def]
  split
  case h_7 heq =>
    obtain ⟨rfl, rfl⟩ := List.cons.inj heq
    exact if_neg h
  all_goals simp_all only [List.cons.injEq, reduceCtorEq, false_and]

theorem scan_escape (seen : List Piece) (c : Char) (rest : List Char) :
    scan seen (escape c ++ rest) = scan (.ofChar c :: seen) rest := by
  unfold escape
  split
  · next h => subst h; rfl
  next hquote =>
  split
  · next h => subst h; rfl
  next hbackslash =>
  split
  · next h => subst h; rfl
  split
  · next h => subst h; rfl
  split
  · next h => subst h; rfl
  split
  · next h => subst h; rfl
  split
  · next h => subst h; rfl
  next ht =>
  split
  · next h =>
    obtain ⟨a, b, hdigits, hunit⟩ := unitOfDigits?_digitsOfByte h
    have hpiece : Piece.ofChar c = .unit c.toNat := if_pos ⟨h, by simp_all⟩
    rw [hdigits, hpiece]
    simp [scan, hunit]
  · next h =>
    have hpiece : Piece.ofChar c = .char c := if_neg fun hc => h hc.1
    rw [hpiece, List.singleton_append, scan_char seen hquote hbackslash h]

theorem scan_quoted (seen : List Piece) (cs rest : List Char) :
    scan seen (cs.flatMap escape ++ '"' :: rest) =
      (⟨seen.reverse ++ cs.map .ofChar, none⟩, rest) := by
  induction cs generalizing seen with
  | nil => simp [scan]
  | cons c cs ih =>
    rw [List.flatMap_cons, List.append_assoc, scan_escape, ih, List.reverse_cons, List.map_cons,
      List.append_assoc, List.singleton_append]

theorem join_ofChar (fault : Option Fault) (done : List Char) (c : Char) (ps : List Piece) :
    join fault done (.ofChar c :: ps) = join fault (c :: done) ps := by
  rw [Piece.ofChar]
  split
  · next h =>
    have hlow : isLowSurrogate c.toNat = false := by
      have := h.1
      simp only [isLowSurrogate, Bool.and_eq_false_iff, decide_eq_false_iff_not]
      omega
    have hhigh : isHighSurrogate c.toNat = false := by
      have := h.1
      simp only [isHighSurrogate, Bool.and_eq_false_iff, decide_eq_false_iff_not]
      omega
    rw [join.eq_def]
    simp only [hlow, hhigh, Bool.false_eq_true, if_false, Char.ofNat_toNat]
  · rfl

/-- How a text is read from between quotes. -/
def ofText (s : String) : Quotation :=
  ⟨s.toList.map .ofChar, none⟩

theorem join_map_ofChar (done cs : List Char) :
    join none done (cs.map .ofChar) = .ok (String.ofList (done.reverse ++ cs)) := by
  induction cs generalizing done with
  | nil => rw [List.map_nil, join, List.append_nil]
  | cons c cs ih =>
    rw [List.map_cons, join_ofChar, ih, List.reverse_cons, List.append_assoc, List.singleton_append]

/-- A text is read as it was before it was quoted. -/
@[simp] theorem value_ofText (s : String) : (ofText s).value = .ok s := by
  rw [value, ofText, join_map_ofChar, List.reverse_nil, List.nil_append, String.ofList_toList]

end Quotation

/-- A text that does not continue a number that stands in front of it. -/
def EndsNumber (rest : List Char) : Prop :=
  ∀ c ∈ rest.head?, Text.isDigit c = false ∧ c ≠ '.' ∧ c ≠ 'e' ∧ c ≠ 'E'

namespace Numeral

/-- How a natural number is written. -/
def ofNat (n : Nat) : Numeral :=
  ⟨false, Nat.toDigits 10 n, [], none⟩

theorem scanDigits_toDigits (n : Nat) {rest : List Char} (h : EndsNumber rest) :
    scanDigits (Nat.toDigits 10 n ++ rest) = .ok (Nat.toDigits 10 n, rest) := by
  have hdigits : ∀ c ∈ Nat.toDigits 10 n, Text.isDigit c = true :=
    Text.forall_mem_toDigits (by decide) (fun _ => Text.isDigit_digitChar) n
  obtain ⟨htake, hdrop⟩ := Text.takeWhile_append_of_stop hdigits fun c hc => (h c hc).1
  cases hds : Nat.toDigits 10 n with
  | nil => exact absurd hds Nat.toDigits_ne_nil
  | cons c cs =>
    rw [hds] at htake hdrop hdigits
    rw [List.cons_append] at htake hdrop ⊢
    rw [scanDigits, if_pos (hdigits c List.mem_cons_self), htake, hdrop]

theorem scanMinus_toDigits (n : Nat) (rest : List Char) :
    scanMinus (Nat.toDigits 10 n ++ rest) = (false, Nat.toDigits 10 n ++ rest) := by
  have hdigits : ∀ c ∈ Nat.toDigits 10 n, c ≠ '-' :=
    Text.forall_mem_toDigits (by decide) (by decide) n
  rw [scanMinus.eq_def]
  split
  · next heq =>
    cases hds : Nat.toDigits 10 n with
    | nil => exact absurd hds Nat.toDigits_ne_nil
    | cons c cs =>
      rw [hds, List.cons_append, List.cons.injEq] at heq
      exact absurd heq.1 (hdigits c (hds ▸ List.mem_cons_self))
  · rfl

theorem scanFraction_of_ends {rest : List Char} (h : EndsNumber rest) :
    scanFraction rest = .ok ([], rest) := by
  rw [scanFraction.eq_def]
  split
  · exact absurd rfl (h _ rfl).2.1
  · rfl

theorem scanExponent_of_ends {rest : List Char} (h : EndsNumber rest) :
    scanExponent rest = .ok (none, rest) := by
  cases rest with
  | nil => rfl
  | cons c cs =>
    have hc := h c rfl
    rw [scanExponent, if_neg (by simp [hc.2.2])]

theorem scan_toDigits (n : Nat) {rest : List Char} (h : EndsNumber rest) :
    scan (Nat.toDigits 10 n ++ rest) = .ok (ofNat n, rest) := by
  have hwhole : scanWhole (Nat.toDigits 10 n ++ rest) = .ok (Nat.toDigits 10 n, rest) := by
    rw [scanWhole, scanDigits_toDigits n h]
    exact if_neg (Text.toDigits_no_leading_zero (by decide) n)
  have hfraction := scanFraction_of_ends h
  have hexponent := scanExponent_of_ends h
  simp only [scan, scanMinus_toDigits, hwhole, hfraction, hexponent, bind, Except.bind]
  rfl

theorem integer?_ofNat {n : Nat} (h : n < UInt64.size) : (ofNat n).integer? = some (n : Int) := by
  have hbelow : Text.natBelow? UInt64.size (Nat.toDigits 10 n) = some n := by
    rw [Text.natBelow?_eq (by decide), Text.natOfDigits_toDigits, if_pos h]
  rw [integer?, ofNat, if_pos ⟨rfl, rfl⟩, hbelow]
  rfl

theorem value_ofNat {n : Nat} (h : n < UInt64.size) : (ofNat n).value = .ok (.integer n) := by
  rw [value, integer?_ofNat h]

end Numeral

end SpanWire.Json
