import SpanWire.Proofs.Json.Reader

/-!
A token is scanned from its own characters and from nothing behind them, so that texts can be put
together at their ends and cut at the marks between their tokens.
-/
namespace SpanWire.Json

/-- A number that stops in front of the first text stops in front of the second as well. -/
def StopsAlike (r rest : List Char) : Prop :=
  EndsNumber rest ∨ rest.head? = r.head?

theorem StopsAlike.append {r rest : List Char} (h : StopsAlike r rest) (x : List Char) :
    StopsAlike (x ++ r) (x ++ rest) := by
  cases x with
  | nil => exact h
  | cons c cs => exact .inr rfl

theorem StopsAlike.refl (r : List Char) : StopsAlike r r :=
  .inr rfl

/-- What may follow the whole of a text may follow the tokens in it. -/
theorem StopsAlike.extend (r : List Char) {rest : List Char} (h : EndsNumber rest) :
    StopsAlike r (r ++ rest) := by
  cases r with
  | nil => exact .inl h
  | cons c cs => exact .inr rfl

namespace Numeral

theorem scanDigits_cut {s digits r : List Char} (h : scanDigits s = .ok (digits, r)) :
    digits ≠ [] ∧ s = digits ++ r ∧
      ∀ rest, StopsAlike r rest → scanDigits (digits ++ rest) = .ok (digits, rest) := by
  cases s with
  | nil => contradiction
  | cons c cs =>
    unfold scanDigits at h
    by_cases hc : Text.isDigit c = true
    · simp only [hc, if_true, Except.ok.injEq, Prod.mk.injEq] at h
      obtain ⟨rfl, rfl⟩ := h
      have hne : (c :: cs).takeWhile Text.isDigit = c :: cs.takeWhile Text.isDigit :=
        List.takeWhile_cons_of_pos hc
      have hall : ∀ d ∈ (c :: cs).takeWhile Text.isDigit, Text.isDigit d = true :=
        List.all_eq_true.1 List.all_takeWhile
      have hstop : ∀ d ∈ ((c :: cs).dropWhile Text.isDigit).head?, Text.isDigit d = false := by
        intro d hd
        have hnot := List.head?_dropWhile_not Text.isDigit (c :: cs)
        rw [Option.mem_def.1 hd] at hnot
        exact hnot
      refine ⟨by simp [hne], List.takeWhile_append_dropWhile.symm, fun rest hrest => ?_⟩
      have hends : ∀ d ∈ rest.head?, Text.isDigit d = false := by
        intro d hd
        rcases hrest with hrest | hrest
        · exact (hrest d hd).1
        · exact hstop d (hrest ▸ hd)
      obtain ⟨htake, hdrop⟩ := Text.takeWhile_append_of_stop hall hends
      rw [hne, List.cons_append] at htake hdrop ⊢
      simp only [scanDigits, hc, if_true, htake, hdrop]
    · simp [hc] at h

theorem scanWhole_cut {s digits r : List Char} (h : scanWhole s = .ok (digits, r)) :
    digits ≠ [] ∧ s = digits ++ r ∧
      ∀ rest, StopsAlike r rest → scanWhole (digits ++ rest) = .ok (digits, rest) := by
  unfold scanWhole at h
  obtain ⟨⟨ds, t⟩, hdigits, h⟩ := bind_eq_ok.1 h
  by_cases hzero : ds.head? = some '0' ∧ ds.length ≠ 1
  · simp [hzero] at h
  · simp only [hzero, if_false, Except.ok.injEq, Prod.mk.injEq] at h
    obtain ⟨rfl, rfl⟩ := h
    obtain ⟨hne, hs, hcut⟩ := scanDigits_cut hdigits
    refine ⟨hne, hs, fun rest hrest => ?_⟩
    unfold scanWhole
    rw [hcut rest hrest]
    exact if_neg hzero

theorem scanFraction_of_head {s : List Char} (h : s.head? ≠ some '.') :
    scanFraction s = .ok ([], s) := by
  unfold scanFraction
  split
  · exact absurd rfl h
  · rfl

theorem scanFraction_cut {s digits r : List Char} (h : scanFraction s = .ok (digits, r)) :
    ∃ x, s = x ++ r ∧
      ∀ rest, StopsAlike r rest → scanFraction (x ++ rest) = .ok (digits, rest) := by
  by_cases hpoint : s.head? = some '.'
  · obtain ⟨t, rfl⟩ := List.head?_eq_some_iff.1 hpoint
    obtain ⟨-, rfl, hcut⟩ := scanDigits_cut h
    exact ⟨'.' :: digits, rfl, hcut⟩
  · rw [scanFraction_of_head hpoint] at h
    obtain ⟨rfl, rfl⟩ := Prod.mk.inj (Except.ok.inj h)
    refine ⟨[], rfl, fun rest hrest => ?_⟩
    rcases hrest with hrest | hrest
    · exact scanFraction_of_ends hrest
    · exact scanFraction_of_head (hrest ▸ hpoint)

theorem scanMinus_of_head {s : List Char} (h : s.head? ≠ some '-') : scanMinus s = (false, s) := by
  unfold scanMinus
  split
  · exact absurd rfl h
  · rfl

theorem scanMinus_cut (s : List Char) :
    ∃ x, s = x ++ (scanMinus s).2 ∧ ∀ rest, rest.head? = (scanMinus s).2.head? →
      scanMinus (x ++ rest) = ((scanMinus s).1, rest) := by
  by_cases hminus : s.head? = some '-'
  · obtain ⟨t, rfl⟩ := List.head?_eq_some_iff.1 hminus
    exact ⟨['-'], rfl, fun rest _ => rfl⟩
  · rw [scanMinus_of_head hminus]
    exact ⟨[], rfl, fun rest hrest => scanMinus_of_head (hrest ▸ hminus)⟩

theorem scanSign_of_head {s : List Char} (h : s.head? ≠ some '+') : scanSign s = scanMinus s := by
  unfold scanSign
  split
  · exact absurd rfl h
  · rfl

theorem scanSign_cut (s : List Char) :
    ∃ x, s = x ++ (scanSign s).2 ∧ ∀ rest, rest.head? = (scanSign s).2.head? →
      scanSign (x ++ rest) = ((scanSign s).1, rest) := by
  by_cases hplus : s.head? = some '+'
  · obtain ⟨t, rfl⟩ := List.head?_eq_some_iff.1 hplus
    exact ⟨['+'], rfl, fun rest _ => rfl⟩
  · rw [scanSign_of_head hplus]
    obtain ⟨x, hs, hcut⟩ := scanMinus_cut s
    refine ⟨x, hs, fun rest hrest => ?_⟩
    have hhead : (x ++ rest).head? ≠ some '+' := by
      rw [List.head?_append, hrest, ← List.head?_append, ← hs]
      exact hplus
    rw [scanSign_of_head hhead, hcut rest hrest]

theorem scanExponent_of_head {s : List Char} (h : ∀ c ∈ s.head?, c ≠ 'e' ∧ c ≠ 'E') :
    scanExponent s = .ok (none, s) := by
  cases s with
  | nil => rfl
  | cons c cs =>
    have hc := h c rfl
    unfold scanExponent
    exact if_neg (not_or.2 hc)

theorem scanExponent_cut {s r : List Char} {e : Option Exponent}
    (h : scanExponent s = .ok (e, r)) :
    ∃ x, s = x ++ r ∧
      ∀ rest, StopsAlike r rest → scanExponent (x ++ rest) = .ok (e, rest) := by
  by_cases hmark : ∃ c ∈ s.head?, c = 'e' ∨ c = 'E'
  · obtain ⟨c, hc, hexp⟩ := hmark
    obtain ⟨t, rfl⟩ := List.head?_eq_some_iff.1 hc
    simp only [scanExponent, hexp, if_true] at h
    obtain ⟨⟨digits, r'⟩, hdigits, h⟩ := bind_eq_ok.1 h
    obtain ⟨rfl, rfl⟩ := Prod.mk.inj (Except.ok.inj h)
    obtain ⟨hne, hrest, hcut⟩ := scanDigits_cut hdigits
    obtain ⟨sign, ht, hsign⟩ := scanSign_cut t
    refine ⟨c :: (sign ++ digits), ?_, fun rest hstop => ?_⟩
    · rw [List.cons_append, List.append_assoc, ← hrest, ← ht]
    · have hhead : (digits ++ rest).head? = (scanSign t).2.head? := by
        rw [hrest, List.head?_append_of_ne_nil _ hne, List.head?_append_of_ne_nil _ hne]
      simp only [List.cons_append, List.append_assoc, scanExponent, hexp, if_true, hsign _ hhead,
        hcut rest hstop]
      rfl
  · have hnone : ∀ c ∈ s.head?, c ≠ 'e' ∧ c ≠ 'E' :=
      fun c hc => not_or.1 fun hexp => hmark ⟨c, hc, hexp⟩
    rw [scanExponent_of_head hnone] at h
    obtain ⟨rfl, rfl⟩ := Prod.mk.inj (Except.ok.inj h)
    refine ⟨[], rfl, fun rest hrest => ?_⟩
    rcases hrest with hrest | hrest
    · exact scanExponent_of_ends hrest
    · exact scanExponent_of_head (hrest ▸ hnone)

/-- A number is scanned from its own characters. -/
theorem scan_cut {s r : List Char} {n : Numeral} (h : scan s = .ok (n, r)) :
    ∃ x, s = x ++ r ∧ ∀ rest, StopsAlike r rest → scan (x ++ rest) = .ok (n, rest) := by
  unfold scan at h
  obtain ⟨⟨whole, s₁⟩, hwhole, h⟩ := bind_eq_ok.1 h
  obtain ⟨⟨fraction, s₂⟩, hfraction, h⟩ := bind_eq_ok.1 h
  obtain ⟨⟨exponent, s₃⟩, hexponent, h⟩ := bind_eq_ok.1 h
  obtain ⟨rfl, rfl⟩ := Prod.mk.inj (Except.ok.inj h)
  obtain ⟨sign, hs, hsign⟩ := scanMinus_cut s
  obtain ⟨hne, hs₀, hcutWhole⟩ := scanWhole_cut hwhole
  obtain ⟨front, rfl, hcutFraction⟩ := scanFraction_cut hfraction
  obtain ⟨back, rfl, hcutExponent⟩ := scanExponent_cut hexponent
  refine ⟨sign ++ (whole ++ (front ++ back)), ?_, fun rest hstop => ?_⟩
  · simp only [List.append_assoc]
    rw [← hs₀, ← hs]
  · have hback := hstop.append back
    have hfront := hback.append front
    have hhead : (whole ++ (front ++ (back ++ rest))).head? = (scanMinus s).2.head? := by
      rw [hs₀, List.head?_append_of_ne_nil _ hne, List.head?_append_of_ne_nil _ hne]
    unfold scan
    simp only [List.append_assoc, hsign _ hhead, hcutWhole _ hfront,
      hcutFraction _ hback, hcutExponent _ hstop, bind, Except.bind]
    rfl

end Numeral

namespace Quotation

theorem scan_unit (seen : List Piece) {a b c d : Char} {n : Nat}
    (h : unitOfDigits? a b c d = some n) (rest : List Char) :
    scan seen ('\\' :: 'u' :: a :: b :: c :: d :: rest) = scan (.unit n :: seen) rest := by
  rw [scan, h]

theorem scan_ofEscape (seen : List Piece) {e c : Char} (h : ofEscape? e = some c)
    (rest : List Char) : scan seen ('\\' :: e :: rest) = scan (.char c :: seen) rest := by
  unfold ofEscape? at h
  split at h <;> cases h <;> rfl

/-- A quotation ends with its closing quote, whatever stands behind that. -/
theorem scan_cut {seen : List Piece} {s r : List Char} {q : Quotation}
    (h : scan seen s = (q, r)) (hq : q.fault = none) :
    ∃ x, s = x ++ r ∧ ∀ rest, scan seen (x ++ rest) = (q, rest) := by
  fun_induction scan seen s with
  | case2 seen s =>
    obtain ⟨rfl, rfl⟩ := Prod.mk.inj h
    exact ⟨['"'], rfl, fun rest => rfl⟩
  | case4 seen a b c d s n hn ih =>
    obtain ⟨x, rfl, hcut⟩ := ih h
    refine ⟨'\\' :: 'u' :: a :: b :: c :: d :: x, rfl, fun rest => ?_⟩
    exact (scan_unit seen hn (x ++ rest)).trans (hcut rest)
  | case7 seen e s _ _ c hc ih =>
    obtain ⟨x, rfl, hcut⟩ := ih h
    refine ⟨'\\' :: e :: x, rfl, fun rest => ?_⟩
    exact (scan_ofEscape seen hc (x ++ rest)).trans (hcut rest)
  | case10 seen c s hquote hend _ _ hescape hc ih =>
    have hbackslash : c ≠ '\\' := by
      intro heq
      cases s with
      | nil => exact hend heq rfl
      | cons e s => exact hescape e s heq rfl
    obtain ⟨x, rfl, hcut⟩ := ih h
    refine ⟨c :: x, rfl, fun rest => ?_⟩
    exact (scan_char seen hquote hbackslash hc (x ++ rest)).trans (hcut rest)
  | case1 | case3 | case5 | case6 | case8 | case9 =>
    obtain ⟨rfl, -⟩ := Prod.mk.inj h
    contradiction

end Quotation

namespace Token

theorem scanSpelling_cut {es s r : List Char} (h : scanSpelling es s = (none, r)) :
    s = es ++ r := by
  fun_induction scanSpelling es s with
  | case1 s => exact (Prod.mk.inj h).2
  | case2 => cases h
  | case3 es c cs ih => rw [ih h, List.cons_append]
  | case4 => cases h

theorem scanSpelling_append (es rest : List Char) :
    scanSpelling es (es ++ rest) = (none, rest) := by
  induction es with
  | nil => rfl
  | cons e es ih =>
    rw [List.cons_append, scanSpelling, if_pos rfl]
    exact ih

theorem scan_mark {c : Char} {m : Token} (h : mark? c = some m) (cs : List Char) :
    scan c cs = (m, cs) := by
  rw [scan, h]

theorem scan_literal {c : Char} {l : Literal} (hmark : mark? c = none)
    (h : literalAt? c = some l) (cs : List Char) :
    scan c cs =
      (.literal l (scanSpelling l.spelling.tail cs).1, (scanSpelling l.spelling.tail cs).2) := by
  rw [scan, hmark, h]

theorem scan_quote (cs : List Char) :
    scan '"' cs = (.text (Quotation.scan [] cs).1, (Quotation.scan [] cs).2) :=
  rfl

/-- What starts with none of the marks, literals and quotes is a number, or nothing. -/
theorem scan_number {c : Char} {cs r : List Char} {t : Token} (hmark : mark? c = none)
    (hliteral : literalAt? c = none) (hquote : c ≠ '"') (h : scan c cs = (t, r))
    (ht : t.isBroken = false) :
    (c = '-' || Text.isDigit c) = true ∧
      ∃ n, t = .number (.ok n) ∧ Numeral.scan (c :: cs) = .ok (n, r) := by
  simp only [scan, hmark, hliteral, hquote, if_false] at h
  by_cases hdigit : (c = '-' || Text.isDigit c) = true
  · rw [if_pos hdigit] at h
    cases hscan : Numeral.scan (c :: cs) with
    | error f =>
      rw [hscan] at h
      obtain ⟨rfl, -⟩ := Prod.mk.inj h
      contradiction
    | ok p =>
      rw [hscan] at h
      obtain ⟨rfl, rfl⟩ := Prod.mk.inj h
      exact ⟨hdigit, p.1, rfl, rfl⟩
  · rw [if_neg hdigit] at h
    obtain ⟨rfl, -⟩ := Prod.mk.inj h
    contradiction

/-- A token is scanned from its own characters. Behind a number something has to stop it. -/
theorem scan_cut {c : Char} {cs r : List Char} {t : Token} (h : scan c cs = (t, r))
    (ht : t.isBroken = false) :
    ∃ x, cs = x ++ r ∧ ∀ rest, StopsAlike r rest → scan c (x ++ rest) = (t, rest) := by
  cases hmark : mark? c with
  | some m =>
    rw [scan_mark hmark] at h
    obtain ⟨rfl, rfl⟩ := Prod.mk.inj h
    exact ⟨[], rfl, fun rest _ => scan_mark hmark rest⟩
  | none =>
  cases hliteral : literalAt? c with
  | some l =>
    rw [scan_literal hmark hliteral] at h
    obtain ⟨rfl, rfl⟩ := Prod.mk.inj h
    have htorn : (scanSpelling l.spelling.tail cs).1 = none := by simpa [isBroken] using ht
    refine ⟨l.spelling.tail, scanSpelling_cut (Prod.ext htorn rfl), fun rest _ => ?_⟩
    rw [scan_literal hmark hliteral, scanSpelling_append, htorn]
  | none =>
  by_cases hquote : c = '"'
  · subst hquote
    rw [scan_quote] at h
    obtain ⟨rfl, rfl⟩ := Prod.mk.inj h
    have hfault : (Quotation.scan [] cs).1.fault = none := by simpa [isBroken] using ht
    obtain ⟨x, hcs, hcut⟩ := Quotation.scan_cut (Prod.ext rfl rfl) hfault
    refine ⟨x, hcs, fun rest _ => ?_⟩
    rw [scan_quote, hcut]
  · obtain ⟨hdigit, n, rfl, hscan⟩ := scan_number hmark hliteral hquote h ht
    obtain ⟨y, hy, hcut⟩ := Numeral.scan_cut hscan
    cases y with
    | nil =>
      have hshort := Numeral.scan_shortens hscan
      rw [hy] at hshort
      exact absurd hshort (Nat.lt_irrefl _)
    | cons d x =>
      obtain ⟨rfl, rfl⟩ := List.cons.inj hy
      refine ⟨x, rfl, fun rest hrest => ?_⟩
      have hnumber : Numeral.scan (c :: (x ++ rest)) = .ok (n, rest) := hcut rest hrest
      simp only [scan, hmark, hliteral, hquote, hdigit, if_false, if_true, hnumber]

/-- A token of one character stands for that character. -/
def isMark : Token → Bool
  | openArray | closeArray | openObject | closeObject | colon | comma => true
  | _ => false

theorem isBroken_of_isMark {m : Token} (h : m.isMark = true) : m.isBroken = false := by
  cases m <;> first | rfl | contradiction

theorem scan_eq_mark {c : Char} {cs r : List Char} {m : Token} (h : scan c cs = (m, r))
    (hm : m.isMark = true) : mark? c = some m ∧ r = cs := by
  cases hmark : mark? c with
  | some t =>
    rw [scan_mark hmark] at h
    obtain ⟨rfl, rfl⟩ := Prod.mk.inj h
    exact ⟨rfl, rfl⟩
  | none =>
    cases hliteral : literalAt? c with
    | some l =>
      rw [scan_literal hmark hliteral] at h
      obtain ⟨rfl, -⟩ := Prod.mk.inj h
      contradiction
    | none =>
      by_cases hquote : c = '"'
      · subst hquote
        obtain ⟨rfl, -⟩ := Prod.mk.inj h
        contradiction
      · obtain ⟨-, n, rfl, -⟩ := scan_number hmark hliteral hquote h (isBroken_of_isMark hm)
        contradiction

theorem scanAll_nil : scanAll [] [] = [] := by
  rw [scanAll, List.reverse_nil]

theorem scanAll_blank {c : Char} (h : isBlank c = true) (cs : List Char) :
    scanAll [] (c :: cs) = scanAll [] cs := by
  rw [scanAll, if_pos h]

theorem scanAll_broken {c : Char} {cs r : List Char} {t : Token} (hblank : isBlank c = false)
    (hscan : scan c cs = (t, r)) (ht : t.isBroken = true) : scanAll [] (c :: cs) = [t] := by
  rw [scanAll]
  simp only [hblank, hscan, ht, Bool.false_eq_true, if_false, if_true, List.reverse_singleton]

theorem scanAll_token {c : Char} {cs r : List Char} {t : Token} (hblank : isBlank c = false)
    (hscan : scan c cs = (t, r)) (ht : t.isBroken = false) :
    scanAll [] (c :: cs) = t :: scanAll [] r := by
  rw [scanAll]
  simp only [hblank, hscan, ht, Bool.false_eq_true, if_false]
  rw [scanAll_eq, List.reverse_singleton, List.singleton_append]

/-- A text is empty, or it starts with a blank, with a broken token or with a token that stays
the same whatever follows it. -/
theorem text_induction {motive : List Char → Prop} (nil : motive [])
    (blank : ∀ c cs, isBlank c = true → motive cs → motive (c :: cs))
    (broken : ∀ c cs t r, isBlank c = false → scan c cs = (t, r) → t.isBroken = true →
      motive (c :: cs))
    (token : ∀ c x r t, isBlank c = false → t.isBroken = false →
      (∀ rest, StopsAlike r rest → scan c (x ++ rest) = (t, rest)) → motive r →
      motive (c :: (x ++ r))) (s : List Char) : motive s := by
  induction hn : s.length using Nat.strongRecOn generalizing s with
  | ind n ih =>
    cases s with
    | nil => exact nil
    | cons c cs =>
      have hshort : cs.length < n := by rw [← hn, List.length_cons]; omega
      cases hblank : isBlank c with
      | true => exact blank c cs hblank (ih _ hshort cs rfl)
      | false =>
        cases hscan : scan c cs with
        | mk t r =>
        cases ht : t.isBroken with
        | true => exact broken c cs t r hblank hscan ht
        | false =>
          obtain ⟨x, rfl, hcut⟩ := scan_cut hscan ht
          have hrest : r.length < n := by
            rw [List.length_append] at hshort
            omega
          exact token c x r t hblank ht hcut (ih _ hrest r rfl)

/-- The tokens of two texts, one behind the other, as long as no number runs on. -/
theorem scanAll_append {s rest : List Char} (h : ∀ t ∈ scanAll [] s, t.isBroken = false)
    (hrest : EndsNumber rest) : scanAll [] (s ++ rest) = scanAll [] s ++ scanAll [] rest := by
  induction s using text_induction with
  | nil => rw [scanAll_nil, List.nil_append, List.nil_append]
  | blank c cs hblank ih =>
    rw [scanAll_blank hblank] at h ⊢
    rw [List.cons_append, scanAll_blank hblank, ih h]
  | broken c cs t r hblank hscan ht =>
    rw [scanAll_broken hblank hscan ht] at h
    rw [h t List.mem_cons_self] at ht
    contradiction
  | token c x r t hblank ht hcut ih =>
    rw [scanAll_token hblank (hcut r (.refl r)) ht] at h ⊢
    have hlong := hcut (r ++ rest) (.extend r hrest)
    rw [List.cons_append, List.append_assoc, scanAll_token hblank hlong ht,
      ih fun u hu => h u (List.mem_cons_of_mem t hu), List.cons_append]

/-- A text can be cut at any mark among its tokens. -/
theorem scanAll_cut {s : List Char} {ts us : List Token} {m : Token}
    (h : scanAll [] s = ts ++ m :: us) (hts : ∀ t ∈ ts, t.isBroken = false)
    (hm : m.isMark = true) :
    ∃ front c back, s = front ++ c :: back ∧ mark? c = some m ∧ scanAll [] front = ts ∧
      scanAll [] back = us := by
  induction s using text_induction generalizing ts with
  | nil =>
    rw [scanAll_nil] at h
    exact absurd h.symm (List.append_ne_nil_of_right_ne_nil ts (List.cons_ne_nil m us))
  | blank c cs hblank ih =>
    rw [scanAll_blank hblank] at h
    obtain ⟨front, d, back, rfl, hd, hfront, hback⟩ := ih h hts
    exact ⟨c :: front, d, back, rfl, hd, (scanAll_blank hblank front).trans hfront, hback⟩
  | broken c cs t r hblank hscan ht =>
    rw [scanAll_broken hblank hscan ht] at h
    cases ts with
    | nil =>
      obtain ⟨rfl, -⟩ := List.cons.inj h
      rw [isBroken_of_isMark hm] at ht
      contradiction
    | cons u ts =>
      obtain ⟨-, hnil⟩ := List.cons.inj h
      exact absurd hnil.symm (List.append_ne_nil_of_right_ne_nil ts (List.cons_ne_nil m us))
  | token c x r t hblank ht hcut ih =>
    have hscan := hcut r (.refl r)
    rw [scanAll_token hblank hscan ht] at h
    cases ts with
    | nil =>
      obtain ⟨rfl, hus⟩ := List.cons.inj h
      obtain ⟨hmark, hr⟩ := scan_eq_mark hscan hm
      rw [← hr]
      exact ⟨[], c, r, rfl, hmark, scanAll_nil, hus⟩
    | cons u ts =>
      obtain ⟨rfl, hrest⟩ := List.cons.inj h
      obtain ⟨ht, hts⟩ := List.forall_mem_cons.1 hts
      obtain ⟨front, d, back, rfl, hd, hfront, hback⟩ := ih hrest hts
      have hstop : StopsAlike (front ++ d :: back) front := by
        cases front with
        | nil => exact .inl nofun
        | cons e front => exact .inr rfl
      refine ⟨c :: (x ++ front), d, back, ?_, hd, ?_, hback⟩
      · rw [List.cons_append, List.append_assoc]
      · rw [scanAll_token hblank (hcut front hstop) ht, hfront]

/-- Blanks are no tokens, and everything else has one. -/
theorem scanAll_eq_nil_iff {s : List Char} :
    scanAll [] s = [] ↔ ∀ c ∈ s, isBlank c = true := by
  induction s using text_induction with
  | nil => exact iff_of_true scanAll_nil nofun
  | blank c cs hblank ih =>
    rw [scanAll_blank hblank, ih, List.forall_mem_cons]
    exact (and_iff_right hblank).symm
  | broken c cs t r hblank hscan ht =>
    rw [scanAll_broken hblank hscan ht]
    refine iff_of_false (List.cons_ne_nil t []) fun h => ?_
    rw [h c List.mem_cons_self] at hblank
    contradiction
  | token c x r t hblank ht hcut ih =>
    rw [scanAll_token hblank (hcut r (.refl r)) ht]
    refine iff_of_false (List.cons_ne_nil t _) fun h => ?_
    rw [h c List.mem_cons_self] at hblank
    contradiction

end Token

end SpanWire.Json
