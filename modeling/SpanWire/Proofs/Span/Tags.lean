import SpanWire.Proofs.Json.Strings
import SpanWire.Proofs.Json.Value
import SpanWire.Proofs.Span.Members
import SpanWire.Proofs.Span.Steps
import SpanWire.Proofs.Wire.Decode

/-!
Where the tags of a span stand in what is written for it, and what is read from an object of tags in
which keys are repeated.
-/
namespace SpanWire

open Json Wire

/-- An object has the tags as one of its members, in their order, unless there are none. -/
def ShowsTags (text : String) (t : Tags) : Prop :=
  ∃ ms, ObjectText text.toList ms ∧ (t = .empty → ms.filter (·.1 = "tags") = []) ∧
    (t ≠ .empty → ∃ value, ms.filter (·.1 = "tags") = [("tags", value)] ∧
      StringsText value t.entries)

/-- The tag that a field holds as its message. -/
def Wire.WireField.tag? (f : WireField) : Option TagMessage :=
  match f.payload with
  | .delimited bs => TagMessage.ofBytes? bs
  | _ => none

namespace Tags

theorem isEmpty_iff {t : Tags} : t.isEmpty = true ↔ t = .empty := by
  rw [isEmpty, List.isEmpty_iff]
  exact ⟨fun h => ext h, fun h => h ▸ rfl⟩

/-- The entries of an object are put in one after the other. -/
theorem readDocument_ofJson {text : String} {entries : List (String × String)}
    (h : StringsText text entries) :
    readDocument ofJson text = .ok (entries.foldl (fun t e => t.insert e.1 e.2) .empty) := by
  obtain ⟨d, htext, hread⟩ := h.readEntries
  rw [readDocument_of_readsAs _ htext, ofJson, hread, ← ofList_eq]
  rfl

end Tags

namespace Span

/-- The steps that set tags to entries. -/
def tagSteps (entries : List (String × String)) : List Step :=
  entries.map fun e => .tag e.1 e.2

theorem run_tagSteps (s : Span) (entries : List (String × String)) :
    s.run (tagSteps entries) =
      { s with tags := entries.foldl (fun t e => t.insert e.1 e.2) s.tags } := by
  induction entries generalizing s with
  | nil => rfl
  | cons e entries ih => exact ih (s.withTag e.1 e.2)

theorem showsTags_render (s : Span) : ShowsTags s.render s.tags := by
  have htext : ObjectText s.render.toList
      ((schema.fields.flatMap (schema.memberOf s.written)).map fun m => (m.1, m.2.render)) := by
    rw [render, toJson_eq]
    exact objectText_render _
  have hfilter : (schema.fields.flatMap (schema.memberOf s.written)).filter (·.1 = "tags") =
      schema.memberOf s.written Field.tags :=
    Schema.filter_members (σ := schema) (by decide) Field.tags
  have hmember {v : Option Json.Value} (hv : s.written .tags = v) :
      schema.memberOf s.written Field.tags = (v.map fun v => ("tags", v)).toList :=
    congrArg (fun v => (Option.map (fun v => ("tags", v)) v).toList) hv
  refine ⟨_, htext, fun hempty => ?_, fun hne => ⟨s.tags.toJson.render, ?_, ?_⟩⟩
  · have hnone : s.written .tags = none := by rw [written, Tags.isEmpty_iff.2 hempty]; rfl
    exact List.filter_map.trans (congrArg (List.map _) (hfilter.trans (hmember hnone)))
  · have hgiven : s.tags.isEmpty = false := Bool.eq_false_iff.2 fun h => hne (Tags.isEmpty_iff.1 h)
    have hsome : s.written .tags = some s.tags.toJson := by rw [written, hgiven]; rfl
    exact List.filter_map.trans (congrArg (List.map _) (hfilter.trans (hmember hsome)))
  · exact stringsText_render s.tags.entries

/-- The tags stand together, behind all other fields but the flags. -/
theorem encode_tags (s : Span) :
    s.encode.toList =
      { s with tags := .empty, debug := false, shared := false }.encode.toList ++
        (s.tags.entries.flatMap fun e => encodings (tagField 11 e.1 e.2)) ++
        encodings (flagField 12 s.debug ++ flagField 13 s.shared) := by
  rw [encode_eq, encode_eq]
  simp [writes, encodings, flagField, Tags.empty, List.flatMap_assoc]

theorem filter_fields_tags (s : Span) :
    s.fields.filter (·.number = 11) =
      s.tags.entries.map fun e => ⟨11, messagePayload (tagFields e.1 e.2)⟩ := by
  have hoptional {α : Type} {number : Nat} (hnumber : number ≠ 11) (payload : α → Payload)
      (o : Option α) : (optionalField number payload o).filter (·.number = 11) = [] := by
    cases o with
    | none => rfl
    | some a => exact List.filter_cons_of_neg (by simpa using hnumber)
  have hif {p : Prop} [Decidable p] {f : WireField} (hf : f.number ≠ 11) :
      (if p then [] else [f]).filter (·.number = 11) = [] := by
    split
    · rfl
    · exact List.filter_cons_of_neg (by simpa using hf)
  simp [fields, endpointFields, hoptional, hif, List.filter_map, Function.comp_def,
    apply_ite (List.filter _)]

/-- The fields of the tags in the encoding are their entries, in their order. -/
theorem readFields_tags {s : Span} (h : s.size < 2 ^ 64) :
    ∃ fs, readFields s.encode.toList = some fs ∧
      (fs.filter (·.number = 11)).map WireField.tag? =
        s.tags.entries.map fun e => some ⟨e.1, e.2⟩ := by
  have hparts := partsFit h
  have hspells := writes_spells hparts
  refine ⟨s.fields, ?_, ?_⟩
  · rw [encode_eq, List.toList_toArray, hspells.bytes, readFields_flatMap hspells.fits]
  · rw [filter_fields_tags, List.map_map]
    exact List.map_congr_left fun e he => ofBytes?_tagFields (hparts.tags e he)

/-- A member with tags that is put into the object of a span without one has the effect of the steps
that set the tags. -/
theorem ofText_tags {text text' value : String} {ms ms' entries : List (String × String)} {s : Span}
    (htext : ObjectText text.toList ms) (htext' : ObjectText text'.toList ms')
    (hwell : ∀ m ∈ ms, WellFormed m.2) (hnew : "tags" ∉ ms.map Prod.fst)
    (hperm : ms'.Perm (("tags", value) :: ms)) (hentries : StringsText value entries)
    (hread : ofText text = .ok s) : ofText text' = .ok (s.run (tagSteps entries)) := by
  have hobjects := Schema.readsObjects (σ := schema) (by decide) rfl Field.readsWhole ofRecord
  obtain ⟨r, hr, rfl⟩ := (hobjects.gives text ms s htext hwell).1 hread
  have hkey : schema.key Field.tags ∉ ms.map Prod.fst := hnew
  have hnone : (ofRecord r).tags = Tags.empty := by
    have habsent := hr.absent Field.tags hkey
    exact (Option.some.inj habsent).symm
  have htags := Tags.readDocument_ofJson hentries
  -- Only the tags differ, which reading the object without them leaves empty.
  have hothers (t : Tags) (f : Field) (hf : f ≠ .tags) :
      record { ofRecord r with tags := t } f = r f := by
    cases f <;> first | rfl | contradiction
  have hwell' : ∀ m ∈ ms', WellFormed m.2 := by
    intro m hm
    rcases List.mem_cons.1 (hperm.subset hm) with rfl | hm
    · exact hentries.wellFormed
    · exact hwell m hm
  have hgives : schema.Gives ms' ((ofRecord r).run (tagSteps entries)).record := by
    rw [run_tagSteps, hnone]
    refine (Schema.gives_congr (hperm.filter _)).2 ?_
    exact hr.cons (by decide) hkey htags (hothers _)
  exact (hobjects.gives text' ms' _ htext' hwell').2 ⟨_, hgives, rfl⟩

/-- A span has in each part what a run of steps gave this part last, all the annotations that were
given, and under each key of a tag the last value for the key. So runs in which the steps keep their
order slot by slot make the same span, with the same text and the same bytes. In both of these the
tags stand in the order of their keys as bytes, each key once. From an object of strings, whatever
its order and however often it repeats a key, the same tags are read as the steps for its members
set. -/
theorem run_slot_by_slot :
    (∀ (traceId : TraceId) (id : SpanId) (steps : List Step),
      let s := (new traceId id).run steps
      s.traceId = traceId ∧ s.id = id ∧
      s.parentId = last .parentId steps ∧ s.kind = last .kind steps ∧ s.name = last .name steps ∧
      s.timestamp = (last .timestamp steps).getD 0 ∧ s.duration = (last .duration steps).getD 0 ∧
      s.localEndpoint = last .localEndpoint steps ∧ s.remoteEndpoint = last .remoteEndpoint steps ∧
      s.annotations = steps.filterMap (Step.given? .annotations) ∧
      (∀ key value, (key, value) ∈ s.tags.entries ↔ last (.tag key) steps = some value) ∧
      (s.tags.entries.map Prod.fst).Nodup ∧
      s.debug = (last .debug steps).getD false ∧ s.shared = (last .shared steps).getD false) ∧
    (∀ (start : Span) (xs ys : List Step),
      (∀ slot, xs.filter (·.slot = slot) = ys.filter (·.slot = slot)) →
        start.run xs = start.run ys ∧ (start.run xs).render = (start.run ys).render ∧
        (start.run xs).encode = (start.run ys).encode) ∧
    (∀ s : Span, (s.tags.entries.Pairwise fun d e => Text.utf8 d.1 < Text.utf8 e.1) ∧
      ShowsTags s.render s.tags ∧
      s.encode.toList =
        { s with tags := .empty, debug := false, shared := false }.encode.toList ++
          (s.tags.entries.flatMap fun e => encodings (tagField 11 e.1 e.2)) ++
          encodings (flagField 12 s.debug ++ flagField 13 s.shared) ∧
      (s.size < 2 ^ 64 → ∃ fs, readFields s.encode.toList = some fs ∧
        (fs.filter (·.number = 11)).map WireField.tag? =
          s.tags.entries.map fun e => some ⟨e.1, e.2⟩)) ∧
    (∀ (value : String) (entries : List (String × String)), StringsText value entries →
      (∀ traceId id, readDocument Tags.ofJson value =
        .ok ((new traceId id).run (tagSteps entries)).tags) ∧
      ∀ (text text' : String) (ms ms' : List (String × String)) (s : Span),
        ObjectText text.toList ms → ObjectText text'.toList ms' → (∀ m ∈ ms, WellFormed m.2) →
        "tags" ∉ ms.map Prod.fst → ms'.Perm (("tags", value) :: ms) → ofText text = .ok s →
          ofText text' = .ok (s.run (tagSteps entries))) := by
  refine ⟨fun traceId id steps => ?parts, fun start xs ys h => ?order, fun s => ?outputs,
    fun value entries hentries => ⟨fun traceId id => ?read, ?whole⟩⟩
  case parts =>
    have hgathers := gathers_run (new traceId id) steps
    have hsome {α : Type} (o : Option α) : o.elim none some = o := by cases o <;> rfl
    have hgetD {α : Type} (o : Option α) (a : α) : (o.elim a fun v => v) = o.getD a := by
      cases o <;> rfl
    refine ⟨hgathers.traceId, hgathers.id, hgathers.parentId.trans (hsome _),
      hgathers.kind.trans (hsome _), hgathers.name.trans (hsome _),
      hgathers.timestamp.trans (hgetD _ _), hgathers.duration.trans (hgetD _ _),
      hgathers.localEndpoint.trans (hsome _), hgathers.remoteEndpoint.trans (hsome _),
      hgathers.annotations, fun key value => ?_, Tags.nodup_keys _,
      hgathers.debug.trans (hgetD _ _), hgathers.shared.trans (hgetD _ _)⟩
    rw [← Tags.get?_eq_some_iff, hgathers.tags key]
    exact Iff.of_eq (congrArg (· = some value) (hsome _))
  case order =>
    have hrun := run_congr h start
    exact ⟨hrun, congrArg render hrun, congrArg encode hrun⟩
  case outputs =>
    exact ⟨s.tags.ascending_utf8, s.showsTags_render, s.encode_tags, readFields_tags⟩
  case read =>
    rw [run_tagSteps]
    exact Tags.readDocument_ofJson hentries
  case whole =>
    intro text text' ms ms' s htext htext' hwell hnew hperm hread
    exact ofText_tags htext htext' hwell hnew hperm hentries hread

/-- Steps for two tags and the name change their places, and an object with a repeated key is read
as these steps for the tags. -/
theorem run_slot_by_slot_sample :
    let xs : List Step := [.tag "b" "1", .name "n", .tag "a" "2", .tag "b" "3"]
    let ys : List Step := [.tag "a" "2", .tag "b" "1", .tag "b" "3", .name "n"]
    let entries := [("b", "1"), ("a", "2"), ("b", "3")]
    let s := new sample.traceId sample.id
    let members := [("traceId", s.traceId.toJson), ("id", s.id.toJson)]
    let tags := Json.Value.object (entries.map fun e => (e.1, .text e.2))
    sample.run xs = sample.run ys ∧
    (∃ fs, readFields sample.encode.toList = some fs ∧
      (fs.filter (·.number = 11)).map WireField.tag? =
        sample.tags.entries.map fun e => some ⟨e.1, e.2⟩) ∧
    ofText (Json.Value.object (("tags", tags) :: members)).render =
      .ok (s.run (tagSteps entries)) ∧
    (s.run (tagSteps entries)).tags.entries = [("a", "2"), ("b", "3")] := by
  intro xs ys entries s members tags
  obtain ⟨-, horder, houtputs, htexts⟩ := run_slot_by_slot
  have hslots (slot : Slot) : xs.filter (·.slot = slot) = ys.filter (·.slot = slot) := by
    cases slot with
    | tag key =>
      by_cases ha : "a" = key
      · subst ha
        decide
      · by_cases hb : "b" = key
        · subst hb
          decide
        · simp [xs, ys, Step.slot, ha, hb]
    | _ => decide
  have hwell : ∀ m ∈ members.map fun m => (m.1, m.2.render), WellFormed m.2 := by
    intro m hm
    obtain ⟨n, -, rfl⟩ := List.mem_map.1 hm
    exact wellFormed_render n.2
  have hread : ofText (Json.Value.object members).render = .ok s := ofText_render s
  obtain ⟨-, hwhole⟩ := htexts tags.render entries (stringsText_render entries)
  refine ⟨(horder sample xs ys hslots).1, (houtputs sample).2.2.2 (by decide), ?_, by decide⟩
  exact hwhole _ _ _ _ s (objectText_render members) (objectText_render (("tags", tags) :: members))
    hwell (by decide) (.refl _) hread

end Span

end SpanWire
