import SpanWire.Proofs.Json.Members

/-! Objects that hold nothing but strings, however these are written, and what is read from them. -/
namespace SpanWire.Json

open Progress

/-- The text of a string is a quotation with the string between its quotes. -/
theorem KeyText.readsAs {text s : String} (h : KeyText text.toList s) :
    ∃ q, ReadsAs text.toList (.leaf (some (.text q))) ∧ q.value = .ok s := by
  obtain ⟨q, htokens, hvalue⟩ := keyText_iff.1 h
  exact ⟨q, readsAs_quotation htokens (Quotation.fault_of_join hvalue), hvalue⟩

theorem KeyText.wellFormed {text s : String} (h : KeyText text.toList s) : WellFormed text := by
  obtain ⟨q, hreads, -⟩ := h.readsAs
  exact wellFormed_iff.2 ⟨_, hreads⟩

/-- A member that holds a string. -/
structure StringMember (m e : String × String) : Prop where
  key : m.1 = e.1
  value : KeyText m.2.toList e.2

/-- The text of an object of strings. -/
def StringsText (text : String) (entries : List (String × String)) : Prop :=
  ∃ ms, ObjectText text.toList ms ∧ List.Forall₂ StringMember ms entries

theorem StringMember.wellFormed {ms es : List (String × String)}
    (h : List.Forall₂ StringMember ms es) : ∀ m ∈ ms, WellFormed m.2 := by
  induction h with
  | nil => nofun
  | cons hm _ ih => exact List.forall_mem_cons.2 ⟨hm.value.wellFormed, ih⟩

theorem stringsText_render (entries : List (String × String)) :
    StringsText (Value.object (entries.map fun e => (e.1, .text e.2))).render entries := by
  refine ⟨_, objectText_render _, ?_⟩
  rw [List.map_map, List.forall₂_map_left_iff, List.forall₂_same]
  intro e _
  refine ⟨rfl, ?_⟩
  have hquote := keyText_quote e.2
  rwa [← String.toList_ofList (l := quote e.2)] at hquote

theorem stringsText_single {text key s : String} :
    StringsText text [(key, s)] ↔
      ∃ member, ObjectText text.toList [(key, member)] ∧ KeyText member.toList s := by
  constructor
  · rintro ⟨ms, htext, hms⟩
    obtain _ | @⟨⟨_, member⟩, _, _, _, ⟨rfl, hvalue⟩, _ | _⟩ := hms
    exact ⟨member, htext, hvalue⟩
  · rintro ⟨member, htext, hvalue⟩
    exact ⟨_, htext, .cons ⟨rfl, hvalue⟩ .nil⟩

/-- A member that holds a string is read as its key and the string. -/
theorem StringMember.read {m e : String × String} {x : Option Token × Draft}
    (h : StringMember m e) (hx : MemberReads m x) :
    readKey x.1 = .ok e.1 ∧ readText .string x.2 = .ok e.2 := by
  obtain ⟨q, hq, hvalue⟩ := h.value.readsAs
  have hdraft : x.2 = .leaf (some (.text q)) := hx.value.unique hq
  refine ⟨h.key ▸ hx.key, ?_⟩
  rw [hdraft]
  exact mapError_eq_ok.2 hvalue

/-- The entries of an object of strings are read in their order, and none of them is left out. -/
theorem StringsText.readEntries {text : String} {entries : List (String × String)}
    (h : StringsText text entries) :
    ∃ d, ReadsAs text.toList d ∧ Json.readEntries (readText .string) d = .ok entries := by
  obtain ⟨ms, htext, hstrings⟩ := h
  obtain ⟨xs, hreads, hmembers⟩ := htext.readsAs (StringMember.wellFormed hstrings)
  have hentries : xs.mapM (fun x => do
      let key ← readKey x.1
      let value ← readText .string x.2
      return (key, value)) = .ok entries := by
    rw [mapM_eq_ok]
    clear htext hreads
    induction hstrings generalizing xs with
    | nil =>
      cases hmembers
      exact .nil
    | @cons m e ms es hm _ ih =>
      obtain _ | @⟨_, x, _, xs, hx, hxs⟩ := hmembers
      obtain ⟨hkey, hvalue⟩ := hm.read hx
      refine .cons ?_ (ih xs hxs)
      rw [hkey, hvalue]
      rfl
  refine ⟨_, hreads, ?_⟩
  rw [Json.readEntries, hentries]
  rfl

theorem StringsText.wellFormed {text : String} {entries : List (String × String)}
    (h : StringsText text entries) : WellFormed text := by
  obtain ⟨d, htext, -⟩ := h.readEntries
  exact wellFormed_iff.2 ⟨d, htext⟩

end SpanWire.Json
