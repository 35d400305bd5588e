import SpanWire.Proofs.Json.Framing

/-!
The text of an array is put together from the texts of its items and can be taken apart into them
again.
-/
namespace SpanWire.Json

open Progress

/-- Only blanks. -/
def IsBlank (s : List Char) : Prop :=
  ∀ c ∈ s, Token.isBlank c = true

theorem IsBlank.nil : IsBlank [] := nofun

/-- The text of an array, with the texts of its items. The blanks around an item belong to it. -/
inductive ArrayText : List Char → List (List Char) → Prop
  | empty {lead body trail : List Char} (hlead : IsBlank lead) (hbody : IsBlank body)
      (htrail : IsBlank trail) : ArrayText (lead ++ '[' :: (body ++ ']' :: trail)) []
  | items {lead trail : List Char} (hlead : IsBlank lead) (item : List Char)
      (items : List (List Char)) (htrail : IsBlank trail) :
      ArrayText (lead ++ '[' :: (commaSeparated (item :: items) ++ ']' :: trail)) (item :: items)

theorem IsBlank.endsNumber {s : List Char} (h : IsBlank s) : EndsNumber s := by
  intro c hc
  have hblank := h c (List.mem_of_mem_head? hc)
  simp only [Token.isBlank, Bool.or_eq_true, decide_eq_true_eq] at hblank
  rcases hblank with ((rfl | rfl) | rfl) | rfl <;> decide

theorem IsBlank.scanAll_append {blanks : List Char} (h : IsBlank blanks) (s : List Char) :
    Token.scanAll [] (blanks ++ s) = Token.scanAll [] s := by
  induction blanks with
  | nil => rfl
  | cons c cs ih =>
    obtain ⟨hc, hcs⟩ := List.forall_mem_cons.1 h
    rw [List.cons_append, Token.scanAll_blank hc, ih hcs]

namespace Progress

theorem ReadsAs.blank_append {s blanks : List Char} {d : Draft} (h : ReadsAs s d)
    (hblank : IsBlank blanks) : ReadsAs (blanks ++ s) d := by
  rw [readsAs_iff, read, hblank.scanAll_append]
  exact readsAs_iff.1 h

theorem ReadsAs.append_blank {s blanks : List Char} {d : Draft} (h : ReadsAs s d)
    (hblank : IsBlank blanks) : ReadsAs (s ++ blanks) d := by
  have hread := h [] blanks hblank.endsNumber
  have htokens := Token.scanAll_eq_nil_iff.2 hblank
  rw [readsAs_iff, hread, read, htokens]
  rfl

end Progress

/-- The text of an array is read as the array of what its items are read as. -/
theorem ArrayText.readsAs {s : List Char} {items : List (List Char)} {ds : List Draft}
    (h : ArrayText s items) (hitems : List.Forall₂ ReadsAs items ds) :
    ReadsAs s (.array ds none) := by
  cases h with
  | @empty lead body trail hlead hbody htrail =>
    cases hitems
    have hempty : ReadsAs ('[' :: (body ++ [']'])) (.array [] none) := by
      intro stack rest _
      have hclose := read_mark (.firstItem stack) (c := ']') rfl rest
      rw [List.cons_append, read_mark _ rfl, List.append_assoc, Progress.read,
        hbody.scanAll_append]
      exact hclose
    have htext := (hempty.blank_append hlead).append_blank htrail
    simp only [List.append_assoc, List.cons_append, List.nil_append] at htext
    exact htext
  | @items lead trail hlead item items htrail =>
    have htext := ((readsAs_array hitems).blank_append hlead).append_blank htrail
    simp only [List.append_assoc, List.cons_append, List.nil_append] at htext
    exact htext

theorem Token.eq_of_mark? {c d : Char} {t : Token} (hc : mark? c = some t)
    (hd : mark? d = some t) : c = d := by
  unfold mark? at hc hd
  split at hc <;> cases hc <;> split at hd <;> cases hd <;> rfl

/-- The character that closes a frame. -/
def Frame.closer : Frame → Char
  | array _ => ']'
  | object .. => '}'

namespace Progress

/-- Behind a value in a frame stands a comma, or the frame is closed. -/
theorem mark_of_foldl {m : Token} {ts : List Token} {d e : Draft} {f : Frame}
    (h : (m :: ts).foldl step (.after d [f]) = .after e []) :
    m = .comma ∨
      (Token.mark? f.closer = some m ∧ (after d [f]).step m = .after (f.close none d) []) := by
  have hend : ((m :: ts).foldl step (.after d [f])).isStopped = false := by
    rw [h]
    rfl
  have hopen : ((after d [f]).step m).isStopped = false := isStopped_of_foldl hend
  cases f with
  | array items =>
    cases m with
    | comma => exact .inl rfl
    | closeArray => exact .inr ⟨rfl, rfl⟩
    | _ => contradiction
  | object members key =>
    cases m with
    | comma => exact .inl rfl
    | closeObject => exact .inr ⟨rfl, rfl⟩
    | _ => contradiction

/-- Where a frame is closed at the end, its next value ends at a comma or at the end of the
frame. -/
theorem exists_value {s : List Char} {e : Draft} {f : Frame}
    (h : read (.value [f]) s = .after e []) :
    ∃ value c rest d, s = value ++ c :: rest ∧ ReadsAs value d ∧
      ((c = ',' ∧ read ((after d [f]).step .comma) rest = .after e []) ∨
        (c = f.closer ∧ IsBlank rest ∧ e = f.close none d)) := by
  obtain ⟨front, back, d, htokens, hfront, hback⟩ :=
    exists_split (p := .value []) (List.cons_ne_nil f []) h
  have hbroken : ∀ t ∈ front, t.isBroken = false := by
    refine not_isBroken_of_foldl (p := .value []) ?_
    rw [hfront]
    rfl
  cases back with
  | nil => cases hback
  | cons m back =>
    have hmark := mark_of_foldl hback
    have hm : m.isMark = true := by
      rcases hmark with rfl | ⟨hclose, -⟩
      · rfl
      · cases f <;> cases hclose <;> rfl
    obtain ⟨value, c, rest, rfl, hc, hvalue, hrest⟩ := Token.scanAll_cut htokens hbroken hm
    have hread : ReadsAs value d := by
      rw [readsAs_iff, read, hvalue]
      exact hfront
    refine ⟨value, c, rest, d, rfl, hread, ?_⟩
    rcases hmark with rfl | ⟨hclose, hstep⟩
    · refine .inl ⟨Token.eq_of_mark? hc rfl, ?_⟩
      rw [read, hrest]
      exact hback
    · rw [List.foldl_cons, hstep] at hback
      obtain ⟨rfl, rfl⟩ := eq_of_foldl_after hback
      exact .inr ⟨Token.eq_of_mark? hc hclose, Token.scanAll_eq_nil_iff.1 hrest, rfl⟩

/-- The rest of an array, from an item on. -/
theorem exists_items {s : List Char} {done : List Draft} {e : Draft}
    (h : read (.value [.array done]) s = .after e []) :
    ∃ item items d ds trail, s = commaSeparated (item :: items) ++ ']' :: trail ∧
      List.Forall₂ ReadsAs (item :: items) (d :: ds) ∧ IsBlank trail ∧
      e = .array (done.reverse ++ d :: ds) none := by
  induction hn : s.length using Nat.strongRecOn generalizing s done with
  | ind n ih =>
    obtain ⟨item, c, rest, d, rfl, hread, ⟨rfl, hnext⟩ | ⟨rfl, hblank, rfl⟩⟩ := exists_value h
    · have hshort : rest.length < n := by
        rw [← hn, List.length_append, List.length_cons]
        omega
      obtain ⟨next, items, d', ds, trail, rfl, hitems, htrail, rfl⟩ := ih _ hshort hnext rfl
      have hparts : commaSeparated (item :: next :: items) =
          item ++ ',' :: commaSeparated (next :: items) := rfl
      refine ⟨item, next :: items, d, d' :: ds, trail, ?_, .cons hread hitems, htrail, ?_⟩
      · rw [hparts, List.append_assoc, List.cons_append]
      · rw [List.reverse_cons, List.append_assoc, List.singleton_append]
    · refine ⟨item, [], d, [], rest, rfl, .cons hread .nil, hblank, ?_⟩
      rw [Frame.close, List.reverse_cons]

end Progress

/-- A text is read as an array exactly if it is the text of one whose items are read as its
items. -/
theorem readsAs_array_iff {s : List Char} {ds : List Draft} :
    Progress.ReadsAs s (.array ds none) ↔
      ∃ items, ArrayText s items ∧ List.Forall₂ Progress.ReadsAs items ds := by
  constructor
  · intro h
    obtain ⟨ts, htokens, hread⟩ := openArray_of_readsAs h
    have hcut : Token.scanAll [] s = [] ++ .openArray :: ts := htokens
    obtain ⟨lead, c, rest, rfl, hc, hlead, rfl⟩ := Token.scanAll_cut hcut nofun rfl
    obtain rfl : c = '[' := Token.eq_of_mark? hc rfl
    have hblank : IsBlank lead := Token.scanAll_eq_nil_iff.1 hlead
    cases hrest : Token.scanAll [] rest with
    | nil =>
      rw [hrest] at hread
      contradiction
    | cons t ts =>
      rw [hrest] at hread
      by_cases hclose : t = .closeArray
      · subst hclose
        have hempty : ts = [] ∧ Draft.array ds none = .array [] none := eq_of_foldl_after hread
        obtain ⟨rfl, heq⟩ := hempty
        obtain rfl : ds = [] := (Draft.array.inj heq).1
        have hcut : Token.scanAll [] rest = [] ++ .closeArray :: [] := hrest
        obtain ⟨body, c, trail, rfl, hc, hbody, htrail⟩ := Token.scanAll_cut hcut nofun rfl
        obtain rfl : c = ']' := Token.eq_of_mark? hc rfl
        have htext := ArrayText.empty hblank (Token.scanAll_eq_nil_iff.1 hbody)
          (Token.scanAll_eq_nil_iff.1 htrail)
        exact ⟨[], htext, .nil⟩
      · have hvalue : Progress.read (.value [.array []]) rest = .after (.array ds none) [] := by
          rw [Progress.read, hrest, List.foldl_cons, ← step_firstItem [] hclose]
          exact hread
        obtain ⟨item, items, d, ds', trail, rfl, hitems, htrail, heq⟩ := exists_items hvalue
        obtain rfl : ds = d :: ds' := (Draft.array.inj heq).1
        exact ⟨item :: items, .items hblank item items htrail, hitems⟩
  · rintro ⟨items, htext, hitems⟩
    exact htext.readsAs hitems

end SpanWire.Json
