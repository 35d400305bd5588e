import Mathlib.Data.List.Forall2
import SpanWire.Json.Draft
import SpanWire.Proofs.Json.Scan

/-! The text of a value holds a draft of that value and nothing else. -/
namespace SpanWire.Json

namespace Value

/-- Values are built from the values within them. -/
@[induction_eliminator]
theorem induct {motive : Value → Prop} (null : motive .null) (bool : ∀ b, motive (.bool b))
    (number : ∀ n, motive (.number n)) (text : ∀ s, motive (.text s))
    (array : ∀ items, (∀ v ∈ items, motive v) → motive (.array items))
    (object : ∀ members, (∀ m ∈ members, motive m.2) → motive (.object members)) (v : Value) :
    motive v := by
  refine @Value.rec motive (fun items => ∀ v ∈ items, motive v)
    (fun members => ∀ m ∈ members, motive m.2) (fun m => motive m.2) null bool number text array
    object ?_ ?_ ?_ ?_ ?_ v
  · exact fun v hv => absurd hv List.not_mem_nil
  · exact fun v vs hv hvs => List.forall_mem_cons.2 ⟨hv, hvs⟩
  · exact fun m hm => absurd hm List.not_mem_nil
  · exact fun m ms hm hms => List.forall_mem_cons.2 ⟨hm, hms⟩
  · exact fun _ _ hv => hv

mutual

/-- The draft that the text of a value is read as. -/
def draft : Value → Draft
  | null => .leaf (some (.literal .null none))
  | bool true => .leaf (some (.literal .true none))
  | bool false => .leaf (some (.literal .false none))
  | number n => .leaf (some (.number (.ok (.ofNat n))))
  | text s => .leaf (some (.text (.ofText s)))
  | array items => .array (itemDrafts items) none
  | object members => .object (memberDrafts members) none

def itemDrafts : List Value → List Draft
  | [] => []
  | v :: vs => v.draft :: itemDrafts vs

def memberDrafts : List (String × Value) → List (Option Token × Draft)
  | [] => []
  | (key, v) :: ms => (some (.text (.ofText key)), v.draft) :: memberDrafts ms

end

def memberDraft (m : String × Value) : Option Token × Draft :=
  (some (.text (.ofText m.1)), m.2.draft)

theorem itemDrafts_eq (items : List Value) : itemDrafts items = items.map draft := by
  induction items with
  | nil => rw [itemDrafts, List.map_nil]
  | cons v vs ih => rw [itemDrafts, ih, List.map_cons]

theorem memberDrafts_eq (members : List (String × Value)) :
    memberDrafts members = members.map memberDraft := by
  induction members with
  | nil => rw [memberDrafts, List.map_nil]
  | cons m ms ih => rw [memberDrafts, ih, List.map_cons, memberDraft]

@[simp] theorem draft_array (items : List Value) :
    (array items).draft = .array (items.map draft) none := by
  rw [draft, itemDrafts_eq]

@[simp] theorem draft_object (members : List (String × Value)) :
    (object members).draft = .object (members.map memberDraft) none := by
  rw [draft, memberDrafts_eq]

def memberText (m : String × Value) : List Char :=
  quote m.1 ++ ':' :: m.2.chars

theorem itemChars_eq (items : List Value) : itemChars items = items.map chars := by
  induction items with
  | nil => rw [itemChars, List.map_nil]
  | cons v vs ih => rw [itemChars, ih, List.map_cons]

theorem memberChars_eq (members : List (String × Value)) :
    memberChars members = members.map memberText := by
  induction members with
  | nil => rw [memberChars, List.map_nil]
  | cons m ms ih => rw [memberChars, ih, List.map_cons, memberText]

end Value

theorem commaSeparated_cons (part : List Char) (parts : List (List Char)) :
    commaSeparated (part :: parts) = part ++ parts.flatMap (',' :: ·) := by
  induction parts generalizing part with
  | nil => rw [commaSeparated, List.flatMap_nil, List.append_nil]
  | cons next parts ih =>
    rw [commaSeparated, ih, List.flatMap_cons, List.cons_append]
    exact List.cons_ne_nil _ _

/-- The tokens already seen only stand in front. -/
theorem Token.scanAll_eq (seen : List Token) (s : List Char) :
    scanAll seen s = seen.reverse ++ scanAll [] s := by
  induction hn : s.length using Nat.strongRecOn generalizing seen s with
  | ind n ih =>
    cases s with
    | nil => rw [scanAll, scanAll, List.reverse_nil, List.append_nil]
    | cons c cs =>
      have hshort : cs.length < n := by rw [← hn, List.length_cons]; omega
      have hrest := Nat.lt_of_le_of_lt (scan_shortens c cs) hshort
      rw [scanAll, scanAll]
      by_cases hblank : isBlank c = true
      · rw [if_pos hblank, if_pos hblank, ih _ hshort seen cs rfl]
      rw [if_neg hblank, if_neg hblank]
      by_cases hbroken : (scan c cs).1.isBroken = true
      · simp only [hbroken, if_true, List.reverse_cons, List.reverse_nil, List.nil_append]
      · simp only [hbroken, Bool.false_eq_true, if_false]
        rw [ih _ hrest (_ :: seen) _ rfl, ih _ hrest [_] _ rfl, List.reverse_cons,
          List.reverse_singleton, List.append_assoc]

namespace Progress

/-- Goes through all tokens of a text. -/
def read (p : Progress) (s : List Char) : Progress :=
  (Token.scanAll [] s).foldl step p

theorem read_token (p : Progress) {c : Char} {cs rest : List Char} {t : Token}
    (hblank : Token.isBlank c = false) (hscan : Token.scan c cs = (t, rest))
    (ht : t.isBroken = false) : read p (c :: cs) = read (p.step t) rest := by
  rw [read, Token.scanAll]
  simp only [hblank, hscan, ht, Bool.false_eq_true, if_false]
  rw [Token.scanAll_eq, List.foldl_append]
  rfl

theorem read_mark (p : Progress) {c : Char} {t : Token} (h : Token.mark? c = some t)
    (cs : List Char) : read p (c :: cs) = read (p.step t) cs := by
  have hmark : Token.isBlank c = false ∧ t.isBroken = false := by
    unfold Token.mark? at h
    split at h <;> cases h <;> exact ⟨by decide, rfl⟩
  have hscan : Token.scan c cs = (t, cs) := by rw [Token.scan, h]
  exact read_token p hmark.1 hscan hmark.2

theorem read_null (p : Progress) (rest : List Char) :
    read p ('n' :: 'u' :: 'l' :: 'l' :: rest) = read (p.step (.literal .null none)) rest :=
  read_token p (by decide) rfl rfl

theorem read_true (p : Progress) (rest : List Char) :
    read p ('t' :: 'r' :: 'u' :: 'e' :: rest) = read (p.step (.literal .true none)) rest :=
  read_token p (by decide) rfl rfl

theorem read_false (p : Progress) (rest : List Char) :
    read p ('f' :: 'a' :: 'l' :: 's' :: 'e' :: rest) =
      read (p.step (.literal .false none)) rest :=
  read_token p (by decide) rfl rfl

theorem read_quote (p : Progress) (s : String) (rest : List Char) :
    read p (quote s ++ rest) = read (p.step (.text (.ofText s))) rest := by
  have hscan : Token.scan '"' (s.toList.flatMap escape ++ '"' :: rest) =
      (.text (.ofText s), rest) := by
    have hquoted := Quotation.scan_quoted [] s.toList rest
    simp only [Token.scan, Token.mark?, Token.literalAt?, hquoted]
    rfl
  rw [quote, List.append_assoc, List.cons_append, List.singleton_append]
  exact read_token p (by decide) hscan rfl

theorem read_number (p : Progress) (n : Nat) {rest : List Char} (h : EndsNumber rest) :
    read p (Nat.toDigits 10 n ++ rest) = read (p.step (.number (.ok (.ofNat n)))) rest := by
  have hscan := Numeral.scan_toDigits n h
  have hfirst : ∀ c ∈ Nat.toDigits 10 n, Token.isBlank c = false ∧ (Token.mark? c).isNone ∧
      (Token.literalAt? c).isNone ∧ c ≠ '"' ∧ Text.isDigit c = true :=
    Text.forall_mem_toDigits (by decide) (by decide) n
  cases hds : Nat.toDigits 10 n with
  | nil => exact absurd hds Nat.toDigits_ne_nil
  | cons c cs =>
    obtain ⟨hblank, hmark, hliteral, hquote, hdigit⟩ := hfirst c (hds ▸ List.mem_cons_self)
    rw [hds, List.cons_append] at hscan
    rw [List.cons_append]
    refine read_token p hblank ?_ rfl
    rw [Token.scan, Option.isNone_iff_eq_none.1 hmark, Option.isNone_iff_eq_none.1 hliteral]
    simp only [hquote, hdigit, if_false, Bool.or_true, if_true, hscan]

theorem endsNumber_mark {c : Char} (h : c ∈ [',', ']', '}']) (cs : List Char) :
    EndsNumber (c :: cs) := by
  rintro d ⟨⟩
  simp only [List.mem_cons, List.not_mem_nil, or_false] at h
  rcases h with rfl | rfl | rfl <;> decide

/-- Reading a text, where a value is due, gives a draft. -/
def ReadsAs (text : List Char) (d : Draft) : Prop :=
  ∀ (stack : List Frame) (rest : List Char), EndsNumber rest →
    read (.value stack) (text ++ rest) = read (.after d stack) rest

/-- Reading a text, where a key is due, gives a member that waits for what follows its value. The
first key of an object need not be there. -/
def ReadsAsMember (text : List Char) (m : Option Token × Draft) : Prop :=
  ∀ (stack : List Frame) (rest : List Char), EndsNumber rest →
    (∀ done, read (.key done stack) (text ++ rest) =
      read (.after m.2 (.object done m.1 :: stack)) rest) ∧
    read (.firstKey stack) (text ++ rest) = read (.after m.2 (.object [] m.1 :: stack)) rest

/-- Reading the text of a value, where one is due, gives its draft. -/
def Reads (v : Value) : Prop :=
  ReadsAs v.chars v.draft

theorem foldl_stopped (doc : Document) (ts : List Token) :
    ts.foldl step (.stopped doc) = .stopped doc := by
  induction ts with
  | nil => rfl
  | cons t ts ih => exact ih

/-- Behind the value of a text nothing more is due. -/
theorem foldl_after (d : Draft) (ts : List Token) :
    ts.foldl step (.after d []) = .after d [] ∨
      ts.foldl step (.after d []) = .stopped ⟨d, true⟩ := by
  cases ts with
  | nil => exact .inl rfl
  | cons t ts => exact .inr (foldl_stopped ⟨d, true⟩ ts)

/-- A text that is read as a value does not start with the bracket that closes an array. -/
theorem ReadsAs.read_firstItem {text : List Char} {d : Draft} (h : ReadsAs text d)
    (stack : List Frame) {rest : List Char} (hrest : EndsNumber rest) :
    read (.firstItem stack) (text ++ rest) =
      read (.value (.array [] :: stack)) (text ++ rest) := by
  have hread := h [] rest hrest
  have hafter := foldl_after d (Token.scanAll [] rest)
  unfold read at hread ⊢
  rw [← hread] at hafter
  cases hts : Token.scanAll [] (text ++ rest) with
  | nil =>
    rw [hts] at hafter
    rcases hafter with hafter | hafter <;> contradiction
  | cons t ts =>
    cases t with
    | closeArray =>
      have hstop : (Token.closeArray :: ts).foldl step (.value []) =
          .stopped ⟨.leaf (some .closeArray), false⟩ := foldl_stopped _ ts
      rw [hts, hstop] at hafter
      rcases hafter with hafter | hafter <;> cases hafter
    | _ => rfl

/-- Behind a part stands another one or the end of the whole. -/
theorem endsNumber_parts (parts : List (List Char)) {c : Char} (h : c ∈ [',', ']', '}'])
    (rest : List Char) : EndsNumber (parts.flatMap (',' :: ·) ++ c :: rest) := by
  cases parts with
  | nil => exact endsNumber_mark h rest
  | cons part parts => exact endsNumber_mark List.mem_cons_self _

theorem read_items {parts : List (List Char)} {ds : List Draft}
    (h : List.Forall₂ ReadsAs parts ds) (d : Draft) (done : List Draft) (stack : List Frame)
    (rest : List Char) :
    read (.after d (.array done :: stack)) (parts.flatMap (',' :: ·) ++ ']' :: rest) =
      read (.after (.array ((d :: done).reverse ++ ds) none) stack) rest := by
  induction h generalizing d done with
  | nil =>
    rw [List.append_nil, List.flatMap_nil, List.nil_append, read_mark _ rfl]
    rfl
  | @cons part next parts ds hpart _ ih =>
    rw [List.flatMap_cons, List.append_assoc, List.cons_append, read_mark _ rfl]
    change read (.value (.array (d :: done) :: stack)) _ = _
    rw [hpart _ _ (endsNumber_parts _ (by decide) rest), ih, List.reverse_cons, List.append_assoc,
      List.singleton_append]

theorem read_members {parts : List (List Char)} {ms : List (Option Token × Draft)}
    (h : List.Forall₂ ReadsAsMember parts ms) (d : Draft) (key : Option Token)
    (done : List (Option Token × Draft)) (stack : List Frame) (rest : List Char) :
    read (.after d (.object done key :: stack)) (parts.flatMap (',' :: ·) ++ '}' :: rest) =
      read (.after (.object (((key, d) :: done).reverse ++ ms) none) stack) rest := by
  induction h generalizing d key done with
  | nil =>
    rw [List.append_nil, List.flatMap_nil, List.nil_append, read_mark _ rfl]
    rfl
  | @cons part m parts ms hpart _ ih =>
    have hends := endsNumber_parts parts (c := '}') (by decide) rest
    rw [List.flatMap_cons, List.append_assoc, List.cons_append, read_mark _ rfl]
    change read (.key ((key, d) :: done) stack) _ = _
    rw [(hpart stack _ hends).1, ih, List.reverse_cons, List.append_assoc, List.singleton_append]

/-- Texts that are read as values make the text of an array, with a comma between each two. -/
theorem readsAs_array {parts : List (List Char)} {ds : List Draft}
    (h : List.Forall₂ ReadsAs parts ds) :
    ReadsAs ('[' :: commaSeparated parts ++ [']']) (.array ds none) := by
  intro stack rest _
  cases h with
  | nil =>
    rw [commaSeparated, List.append_assoc, List.cons_append, List.nil_append,
      List.singleton_append, read_mark _ rfl, read_mark _ rfl]
    rfl
  | @cons part d parts ds hpart hparts =>
    have hends := endsNumber_parts parts (c := ']') (by decide) rest
    rw [commaSeparated_cons, List.append_assoc, List.cons_append, List.append_assoc,
      List.singleton_append, read_mark _ rfl]
    change read (.firstItem stack) _ = _
    rw [hpart.read_firstItem stack hends, hpart _ _ hends, read_items hparts]
    rfl

theorem reads_array {items : List Value} (hitems : ∀ v ∈ items, Reads v) :
    Reads (.array items) := by
  have hparts : List.Forall₂ ReadsAs (items.map Value.chars) (items.map Value.draft) :=
    List.forall₂_map_left_iff.2 (List.forall₂_map_right_iff.2 (List.forall₂_same.2 hitems))
  rw [Reads, Value.chars, Value.draft_array, Value.itemChars_eq]
  exact readsAs_array hparts

/-- Texts that are read as members make the text of an object, with a comma between each two. -/
theorem readsAs_object {parts : List (List Char)} {ms : List (Option Token × Draft)}
    (h : List.Forall₂ ReadsAsMember parts ms) :
    ReadsAs ('{' :: commaSeparated parts ++ ['}']) (.object ms none) := by
  intro stack rest _
  cases h with
  | nil =>
    rw [commaSeparated, List.append_assoc, List.cons_append, List.nil_append,
      List.singleton_append, read_mark _ rfl, read_mark _ rfl]
    rfl
  | @cons part m parts ms hpart hparts =>
    have hends := endsNumber_parts parts (c := '}') (by decide) rest
    rw [commaSeparated_cons, List.append_assoc, List.cons_append, List.append_assoc,
      List.singleton_append, read_mark _ rfl]
    change read (.firstKey stack) _ = _
    rw [(hpart stack _ hends).2, read_members hparts]
    rfl

theorem readsAsMember_memberText {m : String × Value} (h : Reads m.2) :
    ReadsAsMember (Value.memberText m) (Value.memberDraft m) := by
  intro stack rest hrest
  rw [Value.memberText, Value.memberDraft, List.append_assoc, List.cons_append]
  refine ⟨fun done => ?_, ?_⟩
  · rw [read_quote, read_mark _ rfl]
    exact h _ rest hrest
  · rw [read_quote, read_mark _ rfl]
    exact h _ rest hrest

theorem reads_object {ms : List (String × Value)} (hms : ∀ m ∈ ms, Reads m.2) :
    Reads (.object ms) := by
  have hparts : List.Forall₂ ReadsAsMember (ms.map Value.memberText)
      (ms.map Value.memberDraft) :=
    List.forall₂_map_left_iff.2 (List.forall₂_map_right_iff.2 (List.forall₂_same.2
      fun m hm => readsAsMember_memberText (hms m hm)))
  rw [Reads, Value.chars, Value.draft_object, Value.memberChars_eq]
  exact readsAs_object hparts

theorem reads (v : Value) : Reads v := by
  induction v with
  | null =>
    intro stack rest _
    rw [Value.draft]
    exact read_null _ rest
  | bool b =>
    intro stack rest _
    cases b with
    | true =>
      rw [Value.draft]
      exact read_true _ rest
    | false =>
      rw [Value.draft]
      exact read_false _ rest
  | number n =>
    intro stack rest hrest
    rw [Value.draft]
    exact read_number _ n hrest
  | text s =>
    intro stack rest _
    rw [Value.draft]
    exact read_quote _ s rest
  | array items ih => exact reads_array ih
  | object members ih => exact reads_object ih

end Progress

/-- The text of a value is read as the draft of the value, with nothing behind it. -/
theorem Document.ofText_render (v : Value) : ofText v.render = ⟨v.draft, false⟩ := by
  have hread := Progress.reads v [] [] nofun
  rw [List.append_nil] at hread
  rw [ofText, Token.ofText, Value.render, String.toList_ofList]
  change (Progress.read (.value []) v.chars).finish = _
  rw [hread, Progress.read, Token.scanAll]
  rfl

end SpanWire.Json
