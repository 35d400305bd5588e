import SpanWire.Proofs.Json.Whole
import SpanWire.Proofs.Span.Sound

/-!
The spans of an input are those that its text lists, or the one span that its text is. Both are
meant as for texts of their own, with nothing but blanks around.
-/
namespace SpanWire

open Json Json.Progress

theorem Span.ofJson_leaf_ne (t : Option Token) (s : Span) : ofJson (.leaf t) ≠ .ok s := by
  intro h
  obtain ⟨r, hr, -⟩ := map_eq_ok.1 h
  exact wrongType_ne_ok _ _ r (mapError_eq_ok.1 hr)

theorem leaf_of_readText {expected : Expected} {d : Draft} {s : String}
    (h : readText expected d = .ok s) : ∃ t, d = .leaf t := by
  unfold readText at h
  split at h
  · exact ⟨_, rfl⟩
  · exact absurd h (wrongType_ne_ok _ _ s)

/-- An array of spans is no span, for its first item would have to be an identifier. -/
theorem Span.ofJson_ne_of_readList {d : Draft} {spans : List Span}
    (h : readList ofJson d = .ok spans) (s : Span) : ofJson d ≠ .ok s := by
  intro hs
  obtain ⟨r, hr, -⟩ := map_eq_ok.1 hs
  obtain ⟨items, rfl, hitems⟩ := readList_eq_ok.1 h
  have hfields : schema.readFields (.array items none) = .ok r := mapError_eq_ok.1 hr
  obtain ⟨p, hp, -⟩ := bind_eq_ok.1 hfields
  cases hitems with
  | nil =>
    obtain ⟨u, -, hp⟩ := bind_eq_ok.1 hp
    contradiction
  | cons hitem hitems =>
    obtain ⟨id, hid, -⟩ := bind_eq_ok.1 hp
    obtain ⟨text, htext, -⟩ := bind_eq_ok.1 hid
    obtain ⟨t, rfl⟩ := leaf_of_readText htext
    exact ofJson_leaf_ne t _ hitem

/-- The texts of single spans. -/
theorem Span.ofText_eq_ok {text : String} {s : Span} :
    ofText text = .ok s ↔ ∃ d, ReadsAs text.toList d ∧ ofJson d = .ok s :=
  readDocument_eq_ok ((readsWhole_record schema).map ofRecord)

end SpanWire

namespace SpanWire.Cli

open Json Json.Progress

/-- The text of an array, with the texts of its items, each of which is a span by itself. -/
structure ListsSpans (text : String) (items : List String) (spans : List Span) : Prop where
  array : ArrayText text.toList (items.map String.toList)
  items : List.Forall₂ (fun item s => Span.ofText item = .ok s) items spans

/-- The items of an array that is read as spans are texts of spans. -/
theorem exists_listsSpans {text : String} {ds : List Draft} {spans : List Span}
    (htext : ReadsAs text.toList (.array ds none))
    (hds : List.Forall₂ (fun d s => Span.ofJson d = .ok s) ds spans) :
    ∃ items, ListsSpans text items spans := by
  obtain ⟨items, harray, hitems⟩ := readsAs_array_iff.1 htext
  have hspans : List.Forall₂ (fun item s => Span.ofText (String.ofList item) = .ok s)
      items spans := by
    clear harray htext
    induction hds generalizing items with
    | nil =>
      cases hitems
      exact .nil
    | cons hd hds ih =>
      cases hitems with
      | cons hitem hitems =>
        refine .cons (Span.ofText_eq_ok.2 ⟨_, ?_, hd⟩) (ih _ hitems)
        rwa [String.toList_ofList]
  refine ⟨items.map String.ofList, ?_, List.forall₂_map_left_iff.2 hspans⟩
  have hchars : (items.map String.ofList).map String.toList = items := by
    rw [List.map_map]
    exact List.map_id'' (fun _ => String.toList_ofList) items
  rwa [hchars]

/-- The texts of spans in an array are read as the items of the array. -/
theorem ListsSpans.exists_drafts {text : String} {items : List String} {spans : List Span}
    (h : ListsSpans text items spans) :
    ∃ ds, ReadsAs text.toList (.array ds none) ∧
      List.Forall₂ (fun item d => ReadsAs item.toList d) items ds ∧
      List.Forall₂ (fun d s => Span.ofJson d = .ok s) ds spans := by
  obtain ⟨harray, htexts⟩ := h
  have hdrafts : ∃ ds, List.Forall₂ (fun item d => ReadsAs item.toList d) items ds ∧
      List.Forall₂ (fun d s => Span.ofJson d = .ok s) ds spans := by
    clear harray
    induction htexts with
    | nil => exact ⟨[], .nil, .nil⟩
    | cons hitem _ ih =>
      obtain ⟨d, htext, hd⟩ := Span.ofText_eq_ok.1 hitem
      obtain ⟨ds, hitems, hds⟩ := ih
      exact ⟨d :: ds, .cons htext hitems, .cons hd hds⟩
  obtain ⟨ds, hitems, hds⟩ := hdrafts
  exact ⟨ds, harray.readsAs (List.forall₂_map_left_iff.2 hitems), hitems, hds⟩

/-- A draft is tried as a list of spans and as one span, and no draft is both. -/
theorem spansOfDraft_eq_some {d : Draft} {spans : List Span} :
    spansOfDraft d = some spans ↔
      readList Span.ofJson d = .ok spans ∨ ∃ s, Span.ofJson d = .ok s ∧ spans = [s] := by
  unfold spansOfDraft
  cases hlist : readList Span.ofJson d with
  | ok xs =>
    have hsingle := Span.ofJson_ne_of_readList hlist
    constructor
    · intro h
      exact .inl (congrArg Except.ok (Option.some.inj h))
    · rintro (h | ⟨s, hs, -⟩)
      · exact congrArg some (Except.ok.inj h)
      · exact absurd hs (hsingle s)
  | error problem =>
    cases hspan : Span.ofJson d with
    | ok s =>
      constructor
      · intro h
        exact .inr ⟨s, rfl, (Option.some.inj h).symm⟩
      · rintro (h | ⟨t, ht, rfl⟩)
        · contradiction
        · rw [Except.ok.inj ht]
    | error problem =>
      refine iff_of_false nofun ?_
      rintro (h | ⟨s, hs, -⟩) <;> contradiction

theorem readSpans_eq_ok {text : String} {spans : List Span} :
    readSpans text = .ok spans ↔
      ∃ d, ReadsAs text.toList d ∧ d.isSound maxDepth = true ∧ spansOfDraft d = some spans := by
  unfold readSpans
  constructor
  · intro h
    cases hdoc : Document.ofText text with
    | mk d trailing =>
      rw [hdoc] at h
      cases hsound : d.isSound maxDepth with
      | false =>
        simp only [hsound, Bool.not_false, if_true] at h
        contradiction
      | true =>
        simp only [hsound, Bool.not_true, Bool.false_eq_true, if_false] at h
        cases hspans : spansOfDraft d with
        | none =>
          rw [hspans] at h
          contradiction
        | some xs =>
          rw [hspans] at h
          cases trailing with
          | true => contradiction
          | false =>
            obtain rfl := Except.ok.inj h
            have hwhole := Draft.skipFault_of_isSound hsound
            exact ⟨d, readsAs_iff_ofText.2 ⟨hdoc, hwhole⟩, hsound, hspans⟩
  · rintro ⟨d, htext, hsound, hspans⟩
    rw [(readsAs_iff_ofText.1 htext).1]
    simp only [hsound, hspans, Bool.not_true, Bool.false_eq_true, if_false]

/-- The text has no keys but those of fields in the objects of its span. -/
def KnownText (text : String) : Prop :=
  Span.KnownKeys (Document.ofText text).draft

theorem knownKeys_of_readsAs {text : String} {d : Draft} (htext : ReadsAs text.toList d)
    (h : KnownText text) : Span.KnownKeys d := by
  rw [KnownText, (readsAs_iff_ofText.1 htext).1] at h
  exact h

theorem knownKeys_items {items : List String} {ds : List Draft}
    (hitems : List.Forall₂ (fun item d => ReadsAs item.toList d) items ds)
    (h : ∀ item ∈ items, KnownText item) : ∀ d ∈ ds, Span.KnownKeys d := by
  induction hitems with
  | nil => nofun
  | cons hitem _ ih =>
    obtain ⟨hknown, hrest⟩ := List.forall_mem_cons.1 h
    exact List.forall_mem_cons.2 ⟨knownKeys_of_readsAs hitem hknown, ih hrest⟩

/-- Spans that a text lists are read from it, if their keys are known. -/
theorem ListsSpans.readSpans_eq {text : String} {items : List String} {spans : List Span}
    (h : ListsSpans text items spans) (hknown : ∀ item ∈ items, KnownText item) :
    readSpans text = .ok spans := by
  obtain ⟨ds, htext, hitems, hds⟩ := h.exists_drafts
  have hlist : readList Span.ofJson (.array ds none) = .ok spans :=
    readList_eq_ok.2 ⟨ds, rfl, hds⟩
  have heach : EachItem Span.KnownKeys (.array ds none) := knownKeys_items hitems hknown
  have hsound := Span.readsSound.list (.array ds none) spans 123 heach hlist
  exact readSpans_eq_ok.2 ⟨_, htext, hsound, spansOfDraft_eq_some.2 (.inl hlist)⟩

/-- A span that is alone in its text is read from it, if its keys are known. -/
theorem readSpans_single {text : String} {s : Span} (h : Span.ofText text = .ok s)
    (hknown : KnownText text) : readSpans text = .ok [s] := by
  obtain ⟨d, htext, hd⟩ := Span.ofText_eq_ok.1 h
  have hkeys : Span.KnownKeys d := knownKeys_of_readsAs htext hknown
  have hsound := Span.readsSound d s 124 hkeys hd
  exact readSpans_eq_ok.2 ⟨d, htext, hsound, spansOfDraft_eq_some.2 (.inr ⟨s, hd, rfl⟩)⟩

/-- The text of an array of spans, as they are written one by one. -/
def renderList (spans : List Span) : String :=
  (Json.Value.array (spans.map Span.toJson)).render

theorem knownText_render (s : Span) : KnownText s.render := by
  rw [KnownText, Span.render, Document.ofText_render]
  exact s.knownKeys_toJson

theorem listsSpans_renderList {spans : List Span} (h : ∀ s ∈ spans, s.Normal) :
    ListsSpans (renderList spans) (spans.map Span.render) spans where
  array := by
    have hchars : (spans.map Span.render).map String.toList =
        (spans.map Span.toJson).map Json.Value.chars := by
      rw [List.map_map, List.map_map]
      exact List.map_congr_left fun s _ => String.toList_ofList
    rw [hchars, renderList, Json.Value.render, String.toList_ofList, Json.Value.chars,
      Json.Value.itemChars_eq]
    cases spans with
    | nil => exact .empty .nil .nil .nil
    | cons s spans => exact .items .nil _ _ .nil
  items := by
    rw [List.forall₂_map_left_iff]
    refine List.forall₂_same.2 fun s hs => ?_
    rw [Span.ofText_render, Span.normalize_eq_iff.2 (h s hs)]

/-- The text is an object, or an array with the span's fields in their places. -/
def GivesSpan (text : String) (s : Span) : Prop :=
  (∃ members, Document.ofText text = ⟨.object members none, false⟩) ∨
  ∃ items, Document.ofText text = ⟨.array items none, false⟩ ∧
    items.length ≤ Span.Field.all.length ∧
    ∀ x ∈ Span.Field.all.zip items, x.1.read x.2 = .ok (s.record x.1)

theorem givesSpan_of_ofText {text : String} {s : Span} (h : Span.ofText text = .ok s) :
    GivesSpan text s := by
  obtain ⟨d, htext, hs⟩ := Span.ofText_eq_ok.1 h
  obtain ⟨hdoc, hwhole⟩ := readsAs_iff_ofText.1 htext
  obtain ⟨r, hr, hrecord⟩ := map_eq_ok.1 hs
  cases d with
  | leaf t => exact absurd hs (Span.ofJson_leaf_ne t s)
  | object members cut =>
    obtain rfl : cut = none := hwhole
    exact .inl ⟨members, hdoc⟩
  | array items cut =>
    obtain rfl : cut = none := hwhole
    have hfields : s.record = r := by
      subst hrecord
      funext f
      cases f <;> rfl
    refine .inr ⟨items, hdoc, ?_⟩
    have hnodup : Span.Field.all.Nodup := by decide
    rw [hfields]
    exact Schema.readRecord_array hnodup hr

/-- The command line takes a text for the spans that it lists, if it is an array with spans for its
items, or else for the one span it is. No text is both, and nothing else is taken. Conversely each
such text is taken, as long as its spans, endpoints and annotations have known keys only. -/
theorem readSpans_agrees (text : String) :
    (∀ items spans s, ListsSpans text items spans → Span.ofText text ≠ .ok s) ∧
    (∀ spans, readSpans text = .ok spans →
      (∃ items, ListsSpans text items spans) ∨
      ∃ s, Span.ofText text = .ok s ∧ GivesSpan text s ∧ spans = [s]) ∧
    (∀ items spans, ListsSpans text items spans → (∀ item ∈ items, KnownText item) →
      readSpans text = .ok spans) ∧
    ∀ s, Span.ofText text = .ok s → KnownText text → readSpans text = .ok [s] := by
  refine ⟨?disjoint, ?taken, ?list, ?single⟩
  case disjoint =>
    intro items spans s h hs
    obtain ⟨ds, htext, -, hds⟩ := h.exists_drafts
    obtain ⟨d, htext', hd⟩ := Span.ofText_eq_ok.1 hs
    obtain rfl : Draft.array ds none = d := ReadsAs.unique htext htext'
    exact Span.ofJson_ne_of_readList (readList_eq_ok.2 ⟨ds, rfl, hds⟩) s hd
  case taken =>
    intro spans h
    obtain ⟨d, htext, -, hspans⟩ := readSpans_eq_ok.1 h
    rcases spansOfDraft_eq_some.1 hspans with hlist | ⟨s, hs, rfl⟩
    · obtain ⟨ds, rfl, hds⟩ := readList_eq_ok.1 hlist
      exact .inl (exists_listsSpans htext hds)
    · have hspan : Span.ofText text = .ok s := Span.ofText_eq_ok.2 ⟨d, htext, hs⟩
      exact .inr ⟨s, hspan, givesSpan_of_ofText hspan, rfl⟩
  case list => exact fun items spans h hknown => h.readSpans_eq hknown
  case single => exact fun s h hknown => readSpans_single h hknown

theorem readSpans_agrees_sample :
    readSpans (renderList [.sample, .sample]) = .ok [.sample, .sample] ∧
    Span.ofText (renderList [.sample, .sample]) ≠ .ok .sample ∧
    readSpans Span.sample.render = .ok [.sample] ∧
    ((∃ items, ListsSpans Span.sample.render items [.sample]) ∨
      ∃ s, Span.ofText Span.sample.render = .ok s ∧ GivesSpan Span.sample.render s ∧
        [.sample] = [s]) := by
  have hlist : ListsSpans (renderList [.sample, .sample]) [Span.sample.render, Span.sample.render]
      [.sample, .sample] := by
    refine listsSpans_renderList fun s hs => ?_
    obtain rfl : s = .sample := by simpa using hs
    exact Span.normal_sample
  have hsingle : Span.ofText Span.sample.render = .ok .sample := by
    rw [Span.ofText_render, Span.normalize_eq_iff.2 Span.normal_sample]
  obtain ⟨hdisjoint, -, htaken, -⟩ := readSpans_agrees (renderList [.sample, .sample])
  obtain ⟨-, hfrom, -, halone⟩ := readSpans_agrees Span.sample.render
  have hread := halone .sample hsingle (knownText_render .sample)
  refine ⟨htaken _ _ hlist fun item hitem => ?_, hdisjoint _ _ _ hlist, hread, hfrom _ hread⟩
  obtain rfl : item = Span.sample.render := by simpa using hitem
  exact knownText_render .sample

/-- An array may also be one span, with its fields in their places. -/
example :
    (readSpans "[\"1\", null, \"2\"]").toOption =
      (readSpans "[\x7b\"id\": \"2\", \"traceId\": \"1\"\x7d]").toOption := by
  decide +kernel

end SpanWire.Cli
