import Mathlib.Data.Nat.Digits.Lemmas
import SpanWire.Proofs.Id.Grammar

/-!
The order of identifiers is that of their numbers, as long as they have the same width. A narrow
identifier comes before a wide one exactly when it is not above the upper half of it.
-/
namespace SpanWire

namespace Hex

theorem Digit.toChar_lt_iff (d e : Digit) : d.toChar < e.toChar ↔ d < e := by
  revert d e
  decide

theorem spell_lt_iff {ds es : List Digit} :
    spell ds < spell es ↔ ds.map Digit.toChar < es.map Digit.toChar := by
  rw [String.lt_iff, toList_spell, toList_spell]

theorem spell_cons_lt_iff {d e : Digit} {ds es : List Digit} :
    spell (d :: ds) < spell (e :: es) ↔ d < e ∨ d = e ∧ spell ds < spell es := by
  have hsame : d.toChar = e.toChar ↔ d = e := by
    refine ⟨fun h => ?_, congrArg _⟩
    have hread := congrArg Digit.ofChar? h
    rwa [Digit.ofChar?_toChar, Digit.ofChar?_toChar, Option.some.injEq] at hread
  rw [spell_lt_iff, spell_lt_iff, List.map_cons, List.map_cons, List.cons_lt_cons_iff,
    Digit.toChar_lt_iff, hsame]

theorem number_append (ds es : List Digit) :
    number (spell (ds ++ es)) = 16 ^ es.length * number (spell ds) + number (spell es) := by
  rw [number_spell, number_spell, number_spell, List.reverse_append, List.map_append,
    Nat.ofDigits_append, List.length_map, List.length_reverse, Nat.add_comm]

theorem number_cons (d : Digit) (ds : List Digit) :
    number (spell (d :: ds)) = 16 ^ ds.length * d.val + number (spell ds) := by
  have hsingle : number (spell [d]) = d.val := by
    rw [number_spell]
    exact Nat.ofDigits_singleton
  rw [← hsingle, ← number_append, List.singleton_append]

theorem number_lt (ds : List Digit) : number (spell ds) < 16 ^ ds.length := by
  have hsmall : ∀ v ∈ ds.reverse.map Fin.val, v < 16 := List.forall_mem_map.2 fun d _ => d.isLt
  have hlt := Nat.ofDigits_lt_base_pow_length (by decide) hsmall
  rwa [List.length_map, List.length_reverse, ← number_spell] at hlt

/-- The first digits that differ decide between the texts and between the numbers. If none do, the
text that goes on is the greater one. -/
theorem spell_lt_append_iff {ds es : List Digit} (h : ds.length = es.length) (rest : List Digit) :
    spell ds < spell (es ++ rest) ↔
      number (spell ds) < number (spell es) ∨
        number (spell ds) = number (spell es) ∧ rest ≠ [] := by
  induction ds generalizing es with
  | nil =>
    obtain rfl : es = [] := List.length_eq_zero_iff.1 h.symm
    rw [spell_lt_iff]
    cases rest <;> simp
  | cons d ds ih =>
    cases es with
    | nil => contradiction
    | cons e es =>
      have hlength : ds.length = es.length := Nat.succ.inj h
      have hds := number_lt ds
      have hes := number_lt es
      rw [List.cons_append, spell_cons_lt_iff, ih hlength, number_cons, number_cons]
      rw [hlength] at hds ⊢
      -- All that follows the first digit counts less than one unit of it.
      rcases lt_trichotomy d e with hlt | rfl | hgt
      · have hstep : 16 ^ es.length * (d.val + 1) ≤ 16 ^ es.length * e.val :=
          Nat.mul_le_mul_left _ hlt
        rw [Nat.mul_succ] at hstep
        exact iff_of_true (.inl hlt) (.inl (by omega))
      · simp
      · have hstep : 16 ^ es.length * (e.val + 1) ≤ 16 ^ es.length * d.val :=
          Nat.mul_le_mul_left _ hgt
        rw [Nat.mul_succ] at hstep
        refine iff_of_false (fun hor => ?_) (by omega)
        rcases hor with hlt | ⟨rfl, -⟩
        · exact lt_asymm hlt hgt
        · exact lt_irrefl _ hgt

theorem spell_eq_iff {ds es : List Digit} (h : ds.length = es.length) :
    spell ds = spell es ↔ number (spell ds) = number (spell es) :=
  ⟨congrArg number, fun hnumber => congrArg spell (eq_of_number_eq h hnumber)⟩

theorem compare_spell {ds es : List Digit} (h : ds.length = es.length) :
    compare (spell ds) (spell es) = compare (number (spell ds)) (number (spell es)) := by
  have hlt : spell ds < spell es ↔ number (spell ds) < number (spell es) := by
    simpa using spell_lt_append_iff h []
  change compareOfLessAndEq _ _ = compareOfLessAndEq _ _
  simp only [compareOfLessAndEq, hlt, spell_eq_iff h]

/-- A text that goes on behind as many digits is never the same. -/
theorem compare_spell_append {ds es rest : List Digit} (h : ds.length = es.length)
    (hrest : rest ≠ []) :
    compare (spell ds) (spell (es ++ rest)) =
      if number (spell ds) ≤ number (spell es) then .lt else .gt := by
  have hlt : spell ds < spell (es ++ rest) ↔ number (spell ds) ≤ number (spell es) := by
    rw [spell_lt_append_iff h, and_iff_left hrest, Nat.le_iff_lt_or_eq]
  have hne : spell ds ≠ spell (es ++ rest) := by
    intro heq
    have hlength := congrArg (List.length ∘ String.toList) heq
    simp [h, hrest] at hlength
  change compareOfLessAndEq _ _ = _
  simp only [compareOfLessAndEq, hlt, if_neg hne]

end Hex

/-- Whatever is ordered as its texts is ordered transitively and either way round. -/
theorem transCmp_toString (Id : Type) [ToString Id] :
    Std.TransCmp fun a b : Id => compare (toString a) (toString b) where
  eq_swap := Std.OrientedCmp.eq_swap
  isLE_trans := Std.TransCmp.isLE_trans

/-- Texts that are read back are equal only if what they are read as is equal. -/
theorem lawfulEqCmp_toString {Id : Type} [ToString Id] {read : String → Except IdError Id}
    (hread : ∀ id, read (toString id) = .ok id) :
    Std.LawfulEqCmp fun a b : Id => compare (toString a) (toString b) where
  compare_self := Std.ReflCmp.compare_self
  eq_of_compare {a b} h := by
    have htext : toString a = toString b := Std.LawfulEqCmp.eq_of_compare h
    have ha := hread a
    rw [htext, hread b] at ha
    exact (Except.ok.inj ha).symm

namespace TraceId

instance : Std.TransOrd TraceId := transCmp_toString TraceId

instance : Std.LawfulEqOrd TraceId := lawfulEqCmp_toString ofHex?_toString

/-- The upper half of a wide identifier is a number of its own. -/
theorem compare_of_lengths {a b : TraceId} (ha : a.digits.length = 16) (hb : b.digits.length = 32) :
    compare a b =
      if Hex.number (toString a) ≤ Hex.number (toString b) / 2 ^ 64 then .lt else .gt := by
  obtain ⟨front, back, hdigits, hfront⟩ :
      ∃ front back, b.digits = front ++ back ∧ front.length = 16 :=
    ⟨b.digits.take 16, b.digits.drop 16, (List.take_append_drop 16 b.digits).symm,
      by rw [List.length_take, hb]; rfl⟩
  have hback : back.length = 16 := by
    rw [hdigits, List.length_append, hfront] at hb
    omega
  have hrest : back ≠ [] := List.ne_nil_of_length_pos (by omega)
  have hupper : Hex.number (toString b) / 2 ^ 64 = Hex.number (Hex.spell front) := by
    have hlow := Hex.number_lt back
    change Hex.number (Hex.spell b.digits) / 2 ^ 64 = _
    rw [hback] at hlow
    rw [hdigits, Hex.number_append, hback]
    omega
  change compare (Hex.spell a.digits) (Hex.spell b.digits) = _
  rw [hupper, hdigits, Hex.compare_spell_append (ha.trans hfront.symm) hrest]
  rfl

end TraceId

namespace SpanId

instance : Std.TransOrd SpanId := transCmp_toString SpanId

instance : Std.LawfulEqOrd SpanId := lawfulEqCmp_toString ofHex?_toString

end SpanId

/-- Identifiers are totally ordered, and those of one width as their numbers. A narrow identifier
comes before a wide one if its number is at most the upper half of the other, and behind it
otherwise. How many zeros were left out in the texts that they are read from does not matter. -/
theorem ids_ordered_as_numbers :
    (∀ s t a b, SpanId.ofHex? s = .ok a → SpanId.ofHex? t = .ok b →
      Hex.number s < 2 ^ 64 ∧ compare a b = compare (Hex.number s) (Hex.number t)) ∧
    (∀ s t a b, TraceId.ofHex? s = .ok a → TraceId.ofHex? t = .ok b →
      (toString a).length = (toString b).length →
      compare a b = compare (Hex.number s) (Hex.number t)) ∧
    (∀ s t a b, TraceId.ofHex? s = .ok a → TraceId.ofHex? t = .ok b →
      (toString a).length = 16 → (toString b).length = 32 →
      Hex.number t / 2 ^ 64 < 2 ^ 64 ∧
        compare a b = if Hex.number s ≤ Hex.number t / 2 ^ 64 then .lt else .gt) ∧
    (Std.TransOrd SpanId ∧ Std.LawfulEqOrd SpanId) ∧
    Std.TransOrd TraceId ∧ Std.LawfulEqOrd TraceId := by
  have htext (id : TraceId) : (toString id).length = id.digits.length := Hex.length_spell id.digits
  refine ⟨?spans, ?same, ?mixed, ⟨inferInstance, inferInstance⟩, inferInstance, inferInstance⟩
  case spans =>
    intro s t a b hs ht
    rw [← SpanId.readsNumerals.number s a hs, ← SpanId.readsNumerals.number t b ht]
    have hlt : Hex.number (toString a) < 16 ^ 16 := a.width ▸ Hex.number_lt a.digits
    exact ⟨hlt, Hex.compare_spell (a.width.trans b.width.symm)⟩
  case same =>
    intro s t a b hs ht hlength
    rw [htext, htext] at hlength
    rw [← TraceId.readsNumerals.number s a hs, ← TraceId.readsNumerals.number t b ht]
    exact Hex.compare_spell hlength
  case mixed =>
    intro s t a b hs ht ha hb
    rw [htext] at ha hb
    have hlt : Hex.number (toString b) < 16 ^ 32 := hb ▸ Hex.number_lt b.digits
    rw [← TraceId.readsNumerals.number s a hs, ← TraceId.readsNumerals.number t b ht]
    exact ⟨by omega, TraceId.compare_of_lengths ha hb⟩

/-- Of narrow identifiers those up to 5 come before a wide one whose upper half is 5. -/
theorem ids_ordered_as_numbers_sample :
    (∃ a b, SpanId.ofHex? "9" = .ok a ∧ SpanId.ofHex? "000a" = .ok b ∧ compare a b = .lt) ∧
    (∃ a b, TraceId.ofHex? "ff" = .ok a ∧ TraceId.ofHex? "0f0" = .ok b ∧ compare a b = .gt) ∧
    ∃ a b c, TraceId.ofHex? "5" = .ok a ∧ TraceId.ofHex? "06" = .ok b ∧
      TraceId.ofHex? "50000000000000000" = .ok c ∧ compare a c = .lt ∧ compare b c = .gt := by
  obtain ⟨hspans, hsame, hmixed, -⟩ := ids_ordered_as_numbers
  have hspan := SpanId.readsNumerals
  have htrace := TraceId.readsNumerals
  obtain ⟨s, hs⟩ := (hspan.accepts "9").2 ⟨by decide, by decide, by decide +kernel, by decide⟩
  obtain ⟨t, ht⟩ := (hspan.accepts "000a").2 ⟨by decide, by decide, by decide +kernel, by decide⟩
  obtain ⟨u, hu⟩ := (htrace.accepts "ff").2 ⟨by decide, by decide, by decide +kernel, by decide⟩
  obtain ⟨v, hv⟩ := (htrace.accepts "0f0").2 ⟨by decide, by decide, by decide +kernel, by decide⟩
  obtain ⟨a, ha⟩ := (htrace.accepts "5").2 ⟨by decide, by decide, by decide +kernel, by decide⟩
  obtain ⟨b, hb⟩ := (htrace.accepts "06").2 ⟨by decide, by decide, by decide +kernel, by decide⟩
  obtain ⟨c, hc⟩ := (htrace.accepts "50000000000000000").2
    ⟨by decide, by decide, by decide +kernel, by decide⟩
  have huv := (htrace.length _ u hu).trans (htrace.length _ v hv).symm
  have hwide := htrace.length _ c hc
  refine ⟨⟨s, t, hs, ht, ?_⟩, ⟨u, v, hu, hv, ?_⟩, a, b, c, ha, hb, hc, ?_, ?_⟩
  · rw [(hspans _ _ s t hs ht).2]
    decide
  · rw [hsame _ _ u v hu hv huv]
    decide
  · rw [(hmixed _ _ a c ha hc (htrace.length _ a ha) hwide).2]
    decide
  · rw [(hmixed _ _ b c hb hc (htrace.length _ b hb) hwide).2]
    decide

end SpanWire
