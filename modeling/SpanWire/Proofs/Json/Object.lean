import SpanWire.Proofs.Json.Whole

/-!
The text of an object is put together from the texts of its members and can be taken apart into them
again, with the key that each of them has.
-/
namespace SpanWire.Json

open Progress

namespace Progress

/-- Behind an item of an array, nothing but that array can come to an end. -/
theorem array_of_foldl_item {ts : List Token} {d e : Draft} {done : List Draft}
    (h : ts.foldl step (.after d [.array done]) = .after e []) : ∃ ds, e = .array ds none := by
  induction hn : ts.length using Nat.strongRecOn generalizing ts d done with
  | ind n ih =>
    cases ts with
    | nil => cases h
    | cons m ts =>
      rcases mark_of_foldl h with rfl | ⟨-, hstep⟩
      · obtain ⟨front, back, d', rfl, -, hback⟩ :=
          exists_split (p := .value []) (List.cons_ne_nil (Frame.array (d :: done)) []) h
        have hshort : back.length < n := by
          rw [← hn, List.length_cons, List.length_append]
          omega
        exact ih _ hshort hback rfl
      · rw [List.foldl_cons, hstep] at h
        obtain ⟨-, rfl⟩ := eq_of_foldl_after h
        exact ⟨_, rfl⟩

theorem array_of_foldl_firstItem {ts : List Token} {e : Draft}
    (h : ts.foldl step (.firstItem []) = .after e []) : ∃ ds, e = .array ds none := by
  cases ts with
  | nil => contradiction
  | cons t ts =>
    by_cases hclose : t = .closeArray
    · subst hclose
      obtain ⟨-, rfl⟩ := eq_of_foldl_after h
      exact ⟨[], rfl⟩
    · rw [List.foldl_cons, step_firstItem [] hclose] at h
      have hvalue : (t :: ts).foldl step ((value []).above [.array []]) = .after e [] := h
      obtain ⟨front, back, d, -, -, hback⟩ := exists_split (List.cons_ne_nil _ _) hvalue
      exact array_of_foldl_item hback

/-- A text that is read as an object starts with its brace. -/
theorem openObject_of_readsAs {s : List Char} {ms : List (Option Token × Draft)}
    (h : ReadsAs s (.object ms none)) :
    ∃ ts, Token.scanAll [] s = .openObject :: ts ∧
      ts.foldl step (.firstKey []) = .after (.object ms none) [] := by
  rcases tokens_of_readsAs h with ⟨ts, -, hread⟩ | hobject | ⟨t, -, hleaf⟩
  · obtain ⟨ds, hds⟩ := array_of_foldl_firstItem hread
    contradiction
  · exact hobject
  · contradiction

/-- A text that is read as a value without parts is a single token. -/
theorem scanAll_of_readsAs_leaf {s : List Char} {t : Token} (h : ReadsAs s (.leaf (some t))) :
    Token.scanAll [] s = [t] := by
  rcases tokens_of_readsAs h with ⟨ts, -, hread⟩ | ⟨ts, -, hread⟩ | ⟨u, htokens, hleaf⟩
  · obtain ⟨ds, hds⟩ := array_of_foldl_firstItem hread
    contradiction
  · have hobject := isObject_foldl (p := .firstKey []) rfl ts
    rw [hread] at hobject
    contradiction
  · cases hleaf
    exact htokens

theorem readsAs_quotation {s : List Char} {q : Quotation} (htokens : Token.scanAll [] s = [.text q])
    (hclosed : q.fault = none) : ReadsAs s (.leaf (some (.text q))) := by
  have hfault : (Token.text q).skipFault = none := hclosed
  have hleaf := stepValue_leaf [] (t := .text q) nofun nofun
  rw [hfault] at hleaf
  rw [readsAs_iff, read, htokens]
  exact hleaf

/-- Texts one behind the other are read one after the other, as long as no number runs on. -/
theorem read_append {s rest : List Char} (h : ∀ t ∈ Token.scanAll [] s, t.isBroken = false)
    (hrest : EndsNumber rest) (p : Progress) : read p (s ++ rest) = read (read p s) rest := by
  unfold read
  rw [Token.scanAll_append h hrest, List.foldl_append]

end Progress

/-- The text of a key, however its characters are written. -/
def KeyText (text : List Char) (key : String) : Prop :=
  readDocument (readText .string) (String.ofList text) = .ok key

theorem keyText_iff {text : List Char} {key : String} :
    KeyText text key ↔ ∃ q, Token.scanAll [] text = [.text q] ∧ q.value = .ok key := by
  have hwhole : ReadsWhole (readText .string) := (readsSound_text _ 0 .string).readsWhole
  rw [KeyText, readDocument_eq_ok hwhole, String.toList_ofList]
  constructor
  · rintro ⟨d, htext, hd⟩
    unfold readText at hd
    split at hd
    · next q => exact ⟨q, scanAll_of_readsAs_leaf htext, mapError_eq_ok.1 hd⟩
    · exact absurd hd (wrongType_ne_ok _ _ key)
  · rintro ⟨q, htokens, hvalue⟩
    have hclosed : q.fault = none := Quotation.fault_of_join hvalue
    exact ⟨_, readsAs_quotation htokens hclosed, mapError_eq_ok.2 hvalue⟩

/-- The text of a member: that of its key, a colon and that of its value. -/
inductive MemberText : List Char → String × String → Prop
  | mk {key : List Char} {m : String × String} (hkey : KeyText key m.1) :
    MemberText (key ++ ':' :: m.2.toList) m

/-- The text of an object, with the keys of its members and the texts of their values. The blanks
around a key or a value belong to it. -/
inductive ObjectText : List Char → List (String × String) → Prop
  | empty {lead body trail : List Char} (hlead : IsBlank lead) (hbody : IsBlank body)
    (htrail : IsBlank trail) : ObjectText (lead ++ '{' :: (body ++ '}' :: trail)) []
  | members {lead trail part : List Char} {parts : List (List Char)} {m : String × String}
    {ms : List (String × String)} (hlead : IsBlank lead)
    (hparts : List.Forall₂ MemberText (part :: parts) (m :: ms)) (htrail : IsBlank trail) :
    ObjectText (lead ++ '{' :: (commaSeparated (part :: parts) ++ '}' :: trail)) (m :: ms)

/-- A member as it is read: its key is that of the text, and its value is read from the text. -/
structure MemberReads (m : String × String) (x : Option Token × Draft) : Prop where
  key : readKey x.1 = .ok m.1
  value : ReadsAs m.2.toList x.2

theorem wellFormed_of_memberReads {ms : List (String × String)} {xs : List (Option Token × Draft)}
    (h : List.Forall₂ MemberReads ms xs) : ∀ m ∈ ms, WellFormed m.2 := by
  induction h with
  | nil => nofun
  | @cons m x ms xs hx _ ih =>
    have hm : WellFormed m.2 := wellFormed_iff.2 ⟨x.2, hx.value⟩
    exact List.forall_mem_cons.2 ⟨hm, ih⟩

/-- The text of a member is cut at its colon into a quotation, which may have no value, and what is
read as the value of the member. -/
structure SplitsAs (part : List Char) (x : Option Token × Draft) (key value : List Char)
    (q : Quotation) : Prop where
  text : part = key ++ ':' :: value
  key : Token.scanAll [] key = [.text q]
  closed : q.fault = none
  token : x.1 = some (.text q)
  value : ReadsAs value x.2

/-- The text of a member is a quotation, a colon and what is read as a value. -/
def MemberSplits (part : List Char) (x : Option Token × Draft) : Prop :=
  ∃ key value q, SplitsAs part x key value q

theorem MemberSplits.readsAsMember {part : List Char} {x : Option Token × Draft}
    (h : MemberSplits part x) : ReadsAsMember part x := by
  obtain ⟨key, value, ⟨pieces, fault⟩, rfl, htokens, rfl, hx, hvalue⟩ := h
  intro stack rest hrest
  have hsound : ∀ t ∈ Token.scanAll [] key, t.isBroken = false := by
    rw [htokens]
    exact List.forall_mem_singleton.2 rfl
  have hcolon : EndsNumber (':' :: (value ++ rest)) := by
    rintro c ⟨⟩
    decide
  have hkey (p : Progress) : read p key = p.step (.text ⟨pieces, none⟩) := by
    rw [Progress.read, htokens]
    rfl
  rw [List.append_assoc, List.cons_append, hx]
  refine ⟨fun done => ?_, ?_⟩
  · rw [read_append hsound hcolon, hkey, read_mark _ rfl]
    exact hvalue _ rest hrest
  · rw [read_append hsound hcolon, hkey, read_mark _ rfl]
    exact hvalue _ rest hrest

theorem MemberText.splits {part : List Char} {m : String × String} (h : MemberText part m)
    (hvalue : WellFormed m.2) : ∃ x, MemberSplits part x ∧ MemberReads m x := by
  cases h with
  | @mk key m hkey =>
    obtain ⟨q, htokens, hq⟩ := keyText_iff.1 hkey
    obtain ⟨d, hd⟩ := wellFormed_iff.1 hvalue
    have hclosed : q.fault = none := Quotation.fault_of_join hq
    exact ⟨(some (.text q), d), ⟨key, m.2.toList, q, rfl, htokens, hclosed, rfl, hd⟩,
      ⟨mapError_eq_ok.2 hq, hd⟩⟩

theorem MemberSplits.memberText {part : List Char} {x : Option Token × Draft} {name : String}
    (h : MemberSplits part x) (hname : readKey x.1 = .ok name) :
    ∃ m, MemberText part m ∧ MemberReads m x := by
  obtain ⟨key, value, q, rfl, htokens, hclosed, hx, hvalue⟩ := h
  have hq : q.value = .ok name := by
    rw [hx] at hname
    exact mapError_eq_ok.1 hname
  have hread : ReadsAs (String.ofList value).toList x.2 := by
    rw [String.toList_ofList]
    exact hvalue
  have hpart := MemberText.mk (m := (name, String.ofList value))
    (keyText_iff.2 ⟨q, htokens, hq⟩)
  rw [String.toList_ofList] at hpart
  exact ⟨(name, String.ofList value), hpart, ⟨hname, hread⟩⟩

/-- The text of an object is read as members with its keys, if each of its values can be read. -/
theorem ObjectText.readsAs {s : List Char} {ms : List (String × String)} (h : ObjectText s ms)
    (hvalues : ∀ m ∈ ms, WellFormed m.2) :
    ∃ xs, ReadsAs s (.object xs none) ∧ List.Forall₂ MemberReads ms xs := by
  have hparts {parts : List (List Char)} {ms : List (String × String)}
      (h : List.Forall₂ MemberText parts ms) (hvalues : ∀ m ∈ ms, WellFormed m.2) :
      ∃ xs, List.Forall₂ ReadsAsMember parts xs ∧ List.Forall₂ MemberReads ms xs := by
    induction h with
    | nil => exact ⟨[], .nil, .nil⟩
    | cons hpart _ ih =>
      obtain ⟨hm, hms⟩ := List.forall_mem_cons.1 hvalues
      obtain ⟨x, hsplit, hx⟩ := hpart.splits hm
      obtain ⟨xs, hreads, hxs⟩ := ih hms
      exact ⟨x :: xs, .cons hsplit.readsAsMember hreads, .cons hx hxs⟩
  cases h with
  | @empty lead body trail hlead hbody htrail =>
    have hempty : ReadsAs ('{' :: (body ++ ['}'])) (.object [] none) := by
      intro stack rest _
      have hclose := read_mark (.firstKey stack) (c := '}') rfl rest
      rw [List.cons_append, read_mark _ rfl, List.append_assoc, Progress.read,
        hbody.scanAll_append]
      exact hclose
    have htext := (hempty.blank_append hlead).append_blank htrail
    simp only [List.append_assoc, List.cons_append, List.nil_append] at htext
    exact ⟨[], htext, .nil⟩
  | members hlead hmembers htrail =>
    obtain ⟨xs, hreads, hxs⟩ := hparts hmembers hvalues
    have htext := ((readsAs_object hreads).blank_append hlead).append_blank htrail
    simp only [List.append_assoc, List.cons_append, List.nil_append] at htext
    exact ⟨xs, htext, hxs⟩

namespace Progress

/-- Where an object is closed at the end, its next member starts with a quotation and a colon. -/
theorem exists_key {s : List Char} {done : List (Option Token × Draft)} {e : Draft}
    (h : read (.key done []) s = .after e []) :
    ∃ key q rest, s = key ++ ':' :: rest ∧ Token.scanAll [] key = [.text q] ∧ q.fault = none ∧
      read (.value [.object done (some (.text q))]) rest = .after e [] := by
  have hend : (read (.key done []) s).isStopped = false := by
    rw [h]
    rfl
  cases hts : Token.scanAll [] s with
  | nil =>
    rw [read, hts] at h
    contradiction
  | cons t ts =>
    rw [read, hts] at hend h
    have hkey : ((key done []).step t).isStopped = false := isStopped_of_foldl hend
    cases t with
    | text q =>
      obtain ⟨pieces, fault⟩ := q
      cases fault with
      | some why => contradiction
      | none =>
        cases ts with
        | nil => contradiction
        | cons u ts =>
          have hrest : (ts.foldl step ((colon done (.text ⟨pieces, none⟩) []).step u)).isStopped =
              false := hend
          have hcolon := isStopped_of_foldl hrest
          cases u with
          | colon =>
            have hcut : Token.scanAll [] s = [.text ⟨pieces, none⟩] ++ .colon :: ts := hts
            have hsound : ∀ t ∈ [Token.text ⟨pieces, none⟩], t.isBroken = false :=
              List.forall_mem_singleton.2 rfl
            obtain ⟨key, c, rest, rfl, hc, hkey, hrest⟩ := Token.scanAll_cut hcut hsound rfl
            obtain rfl : c = ':' := Token.eq_of_mark? hc rfl
            refine ⟨key, ⟨pieces, none⟩, rest, rfl, hkey, rfl, ?_⟩
            rw [read, hrest]
            exact h
          | _ => contradiction
    | _ => contradiction

/-- The rest of an object, from a member on. -/
theorem exists_members {s : List Char} {done : List (Option Token × Draft)} {e : Draft}
    (h : read (.key done []) s = .after e []) :
    ∃ part parts x xs trail, s = commaSeparated (part :: parts) ++ '}' :: trail ∧
      List.Forall₂ MemberSplits (part :: parts) (x :: xs) ∧ IsBlank trail ∧
      e = .object (done.reverse ++ x :: xs) none := by
  induction hn : s.length using Nat.strongRecOn generalizing s done with
  | ind n ih =>
    obtain ⟨key, q, rest, rfl, htokens, hclosed, hvalue⟩ := exists_key h
    obtain ⟨value, c, rest, d, rfl, hread, hend⟩ := exists_value hvalue
    have hsplit : MemberSplits (key ++ ':' :: value) (some (.text q), d) :=
      ⟨key, value, q, rfl, htokens, hclosed, rfl, hread⟩
    rcases hend with ⟨rfl, hnext⟩ | ⟨rfl, hblank, rfl⟩
    · have hshort : rest.length < n := by
        rw [← hn, List.length_append, List.length_cons, List.length_append, List.length_cons]
        omega
      obtain ⟨part, parts, x, xs, trail, rfl, hsplits, htrail, rfl⟩ := ih _ hshort hnext rfl
      have hparts : commaSeparated ((key ++ ':' :: value) :: part :: parts) =
          key ++ ':' :: value ++ ',' :: commaSeparated (part :: parts) := rfl
      refine ⟨key ++ ':' :: value, part :: parts, (some (.text q), d), x :: xs, trail, ?_,
        .cons hsplit hsplits, htrail, ?_⟩
      · simp only [hparts, List.append_assoc, List.cons_append]
      · rw [List.reverse_cons, List.append_assoc, List.singleton_append]
    · refine ⟨key ++ ':' :: value, [], (some (.text q), d), [], rest, ?_, .cons hsplit .nil,
        hblank, ?_⟩
      · simp only [commaSeparated, List.append_assoc, List.cons_append, Frame.closer]
      · rw [Frame.close, List.reverse_cons]

end Progress

/-- A text that is read as an object, whose keys can all be read, is the text of one with these
keys. -/
theorem objectText_of_readsAs {s : List Char} {xs : List (Option Token × Draft)}
    (h : ReadsAs s (.object xs none)) (hkeys : ∀ x ∈ xs, ∃ key, readKey x.1 = .ok key) :
    ∃ ms, ObjectText s ms ∧ List.Forall₂ MemberReads ms xs := by
  have hmembers {parts : List (List Char)} {xs : List (Option Token × Draft)}
      (h : List.Forall₂ MemberSplits parts xs) (hkeys : ∀ x ∈ xs, ∃ key, readKey x.1 = .ok key) :
      ∃ ms, List.Forall₂ MemberText parts ms ∧ List.Forall₂ MemberReads ms xs := by
    induction h with
    | nil => exact ⟨[], .nil, .nil⟩
    | cons hsplit _ ih =>
      obtain ⟨⟨key, hkey⟩, hrest⟩ := List.forall_mem_cons.1 hkeys
      obtain ⟨m, htext, hm⟩ := hsplit.memberText hkey
      obtain ⟨ms, htexts, hms⟩ := ih hrest
      exact ⟨m :: ms, .cons htext htexts, .cons hm hms⟩
  obtain ⟨ts, htokens, hread⟩ := openObject_of_readsAs h
  have hcut : Token.scanAll [] s = [] ++ .openObject :: ts := htokens
  obtain ⟨lead, c, rest, rfl, hc, hlead, rfl⟩ := Token.scanAll_cut hcut nofun rfl
  obtain rfl : c = '{' := Token.eq_of_mark? hc rfl
  have hblank : IsBlank lead := Token.scanAll_eq_nil_iff.1 hlead
  cases hrest : Token.scanAll [] rest with
  | nil =>
    rw [hrest] at hread
    contradiction
  | cons t ts =>
    rw [hrest] at hread
    by_cases hclose : t = .closeObject
    · subst hclose
      have hempty : ts = [] ∧ Draft.object xs none = .object [] none := eq_of_foldl_after hread
      obtain ⟨rfl, heq⟩ := hempty
      obtain rfl : xs = [] := (Draft.object.inj heq).1
      have hcut : Token.scanAll [] rest = [] ++ .closeObject :: [] := hrest
      obtain ⟨body, c, trail, rfl, hc, hbody, htrail⟩ := Token.scanAll_cut hcut nofun rfl
      obtain rfl : c = '}' := Token.eq_of_mark? hc rfl
      have htext := ObjectText.empty hblank (Token.scanAll_eq_nil_iff.1 hbody)
        (Token.scanAll_eq_nil_iff.1 htrail)
      exact ⟨[], htext, .nil⟩
    · have hkey : Progress.read (.key [] []) rest = .after (.object xs none) [] := by
        rw [Progress.read, hrest, List.foldl_cons, ← step_firstKey [] hclose]
        exact hread
      obtain ⟨part, parts, x, xs', trail, rfl, hsplits, htrail, heq⟩ := exists_members hkey
      obtain rfl : xs = x :: xs' := (Draft.object.inj heq).1
      obtain ⟨ms, htexts, hms⟩ := hmembers hsplits hkeys
      cases hms with
      | cons hm hms => exact ⟨_, .members hblank htexts htrail, .cons hm hms⟩

theorem readsAs_render (v : Value) : ReadsAs v.render.toList v.draft := by
  rw [Value.render, String.toList_ofList]
  exact reads v

theorem wellFormed_render (v : Value) : WellFormed v.render :=
  wellFormed_iff.2 ⟨v.draft, readsAs_render v⟩

theorem keyText_quote (key : String) : KeyText (quote key) key := by
  have htext : ReadsAs (String.ofList (quote key)).toList (Value.text key).draft :=
    readsAs_render (.text key)
  rw [KeyText, readDocument_of_readsAs _ htext, readText_text]

/-- The text of an object value has the members of the value. -/
theorem objectText_render (ms : List (String × Value)) :
    ObjectText (Value.object ms).render.toList (ms.map fun m => (m.1, m.2.render)) := by
  have hpart (m : String × Value) : MemberText (Value.memberText m) (m.1, m.2.render) := by
    have hmember := MemberText.mk (m := (m.1, m.2.render)) (keyText_quote m.1)
    rw [Value.render, String.toList_ofList] at hmember
    exact hmember
  have hparts : List.Forall₂ MemberText (ms.map Value.memberText)
      (ms.map fun m => (m.1, m.2.render)) :=
    List.forall₂_map_left_iff.2 (List.forall₂_map_right_iff.2 (List.forall₂_same.2
      fun m _ => hpart m))
  rw [Value.render, String.toList_ofList, Value.chars, Value.memberChars_eq]
  cases ms with
  | nil => exact .empty .nil .nil .nil
  | cons m ms => exact .members .nil hparts .nil

end SpanWire.Json
