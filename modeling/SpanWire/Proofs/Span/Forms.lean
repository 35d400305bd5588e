import SpanWire.Proofs.Json.Items
import SpanWire.Proofs.Json.Object
import SpanWire.Proofs.Span.Members

/-!
The forms a span can be written in. The span, each of its endpoints and each of its annotations is
an object, or an array of the fields in declared order that may lack fields at its end, and all
these choices are free of each other.
-/
namespace SpanWire

open Json

namespace Endpoint

/-- The object of an endpoint, or the array of its parts, without some unknown ones at the end. -/
inductive Form (e : Endpoint) : Value → Prop
  | object : Form e e.toJson
  | array (n : Nat) (hdrop : ∀ f ∈ Field.all.drop n, e.record f = empty.record f) :
    Form e (.array ((Field.all.take n).map fun f => (e.written f).getD .null))

theorem Form.ne_null {e : Endpoint} {v : Value} (h : e.Form v) : v ≠ .null := by
  cases h <;> nofun

theorem nodup_fields : Field.all.Nodup := by
  decide

/-- An unknown part is written as `null`. -/
theorem blanks_null : schema.Blanks fun _ => .null := by
  intro f a ha
  cases f <;> cases ha <;> rfl

theorem Form.ofJson {e : Endpoint} {v : Value} (h : e.Form v) (hnormal : e.Normal) :
    ofJson v.draft = .ok e := by
  cases h with
  | object => rw [ofJson_toJson, normalize_of_normal hnormal]
  | array n hdrop =>
    have habsent : ∀ f ∈ Field.all.drop n, f.absent = some (e.record f) := by
      intro f hf
      rw [hdrop f hf]
      cases f <;> rfl
    have hread := Schema.readRecord_items nodup_fields e.describes blanks_null n habsent
    have hrecord : ofRecord e.record = e := e.ofParts_eq.trans (normalize_of_normal hnormal)
    exact map_eq_ok.2 ⟨e.record, hread, hrecord⟩

end Endpoint

namespace Annotation

/-- The object of an annotation, or the array of both its parts. -/
inductive Form (a : Annotation) : Value → Prop
  | object : Form a a.toJson
  | array : Form a (.array [.number a.timestamp.toNat, .text a.value])

theorem nodup_fields : Field.all.Nodup := by
  decide

theorem Form.ofJson {a : Annotation} {v : Value} (h : a.Form v) : ofJson v.draft = .ok a := by
  cases h with
  | object => exact a.ofJson_toJson
  | array =>
    have hblank : schema.Blanks fun _ => .null := nofun
    have hread := Schema.readRecord_items nodup_fields a.describes hblank 2 nofun
    exact map_eq_ok.2 ⟨a.record, hread, rfl⟩

/-- Annotations in any forms are read as they are. -/
theorem readList_forms {as : List Annotation} {vs : List Value}
    (h : List.Forall₂ Form as vs) : readList ofJson (Value.array vs).draft = .ok as := by
  rw [Value.draft_array, readList_eq_ok]
  refine ⟨vs.map Value.draft, rfl, ?_⟩
  rw [List.forall₂_map_left_iff]
  exact h.flip.imp fun v a hform => Form.ofJson hform

end Annotation

namespace Span

/-- What stands in an array in the place of a field that is not written otherwise. -/
def Field.blank : Field → Json.Value
  | timestamp => .number 0
  | duration => .number 0
  | annotations => .array []
  | tags => .object []
  | debug => .bool false
  | shared => .bool false
  | _ => .null

/-- What is written for the fields of a span, with any form of each endpoint and annotation. -/
structure Choice (s : Span) (w : Field → Option Value) : Prop where
  localEndpoint : Option.Rel Endpoint.Form s.localEndpoint (w .localEndpoint)
  remoteEndpoint : Option.Rel Endpoint.Form s.remoteEndpoint (w .remoteEndpoint)
  annotations : ∃ vs, List.Forall₂ Annotation.Form s.annotations vs ∧
    w .annotations = if !s.annotations.isEmpty then some (.array vs) else none
  others : ∀ f, f ≠ .localEndpoint → f ≠ .remoteEndpoint → f ≠ .annotations → w f = s.written f

/-- The object of a span, or the array of its fields. At the end of the array fields may be left
out that are as in a span of which only the identifiers are known. -/
inductive Form (s : Span) : Value → Prop
  | object {w : Field → Option Value} (h : s.Choice w) :
    Form s (.object (Field.all.flatMap fun f => schema.memberOf w f))
  | array {w : Field → Option Value} (h : s.Choice w) (n : Nat) (hn : 3 ≤ n)
    (hdrop : ∀ f ∈ Field.all.drop n, s.record f = (new s.traceId s.id).record f) :
    Form s (.array ((Field.all.take n).map fun f => (w f).getD f.blank))

theorem nodup_fields : Field.all.Nodup := by
  decide

theorem blanks_blank : schema.Blanks Field.blank := by
  intro f a ha
  cases f with
  | traceId => contradiction
  | id => contradiction
  | timestamp =>
    obtain rfl := Option.some.inj ha
    exact readUInt64_number .number 0
  | duration =>
    obtain rfl := Option.some.inj ha
    exact readUInt64_number .number 0
  | annotations =>
    obtain rfl := Option.some.inj ha
    exact Annotation.readList_forms .nil
  | tags =>
    obtain rfl := Option.some.inj ha
    exact Tags.empty.ofJson_toJson
  | _ =>
    obtain rfl := Option.some.inj ha
    rfl

theorem read_endpoint {o : Option Endpoint} {given : Option Value}
    (h : Option.Rel Endpoint.Form o given) (hnormal : ∀ e ∈ o, e.Normal) :
    (∀ v, given = some v → readOption Endpoint.ofJson v.draft = .ok o) ∧
      (given = none → o = none) := by
  cases h with
  | none => exact ⟨nofun, fun _ => rfl⟩
  | @some e v hform =>
    refine ⟨?_, nofun⟩
    rintro v ⟨⟩
    rw [readOption_draft _ hform.ne_null, hform.ofJson (hnormal e rfl)]
    rfl

/-- Whatever forms are chosen, what is written describes the span. -/
theorem Choice.describes {s : Span} {w : Field → Option Value} (h : s.Choice w)
    (hnormal : s.Normal) : @Schema.Describes schema w s.record := by
  have hwritten : @Schema.Describes schema s.written s.record := by
    have hdescribes := s.describes
    rwa [normalize_eq_iff.2 hnormal] at hdescribes
  obtain ⟨hlocal, hnoLocal⟩ := read_endpoint h.localEndpoint hnormal.localEndpoint
  obtain ⟨hremote, hnoRemote⟩ := read_endpoint h.remoteEndpoint hnormal.remoteEndpoint
  obtain ⟨vs, hforms, hannotations⟩ := h.annotations
  have hothers (f : Field) (hlocal : f ≠ .localEndpoint) (hremote : f ≠ .remoteEndpoint)
      (hevents : f ≠ .annotations) :
      (∀ v, w f = some v → schema.read f v.draft = .ok (s.record f)) ∧
        (w f = none → schema.absent f = some (s.record f)) := by
    rw [h.others f hlocal hremote hevents]
    exact ⟨hwritten.read f, hwritten.absent f⟩
  have hfield (f : Field) : (∀ v, w f = some v → schema.read f v.draft = .ok (s.record f)) ∧
      (w f = none → schema.absent f = some (s.record f)) := by
    cases f with
    | localEndpoint => exact ⟨hlocal, fun hnone => congrArg some (hnoLocal hnone).symm⟩
    | remoteEndpoint => exact ⟨hremote, fun hnone => congrArg some (hnoRemote hnone).symm⟩
    | annotations =>
      have hread := Annotation.readList_forms hforms
      rw [hannotations]
      refine ⟨fun v => read_given hread, fun hnone => ?_⟩
      have hempty : s.annotations.isEmpty = true := by simpa using not_given hnone
      exact congrArg some (List.isEmpty_iff.1 hempty).symm
    | _ => exact hothers _ nofun nofun nofun
  exact ⟨fun f => (hfield f).1, fun f => (hfield f).2⟩

theorem Form.ofText {s : Span} {v : Value} (h : s.Form v) (hnormal : s.Normal) :
    ofText v.render = .ok s := by
  have hread : schema.readRecord v.draft = .ok s.record := by
    cases h with
    | object h => exact Schema.readRecord_written (by decide) (h.describes hnormal)
    | array h n hn hdrop =>
      refine Schema.readRecord_items nodup_fields (h.describes hnormal) blanks_blank n ?_
      intro f hf
      have hlater : f ∈ Field.all.drop 3 := (List.drop_sublist_drop_left _ hn).subset hf
      change f.absent = some (s.record f)
      rw [hdrop f hf]
      cases f with
      | traceId => exact absurd hlater (by decide)
      | id => exact absurd hlater (by decide)
      | _ => rfl
  have hofJson : ofJson v.draft = .ok s := map_eq_ok.2 ⟨s.record, hread, rfl⟩
  rw [Span.ofText, readDocument_of_readsAs _ (readsAs_render v)]
  exact hofJson

/-- The object that is written for a span is one of its forms. -/
theorem form_toJson (s : Span) : s.Form s.toJson := by
  have hendpoint (o : Option Endpoint) : Option.Rel Endpoint.Form o (o.map Endpoint.toJson) := by
    cases o with
    | none => exact .none
    | some e => exact .some .object
  have hforms : List.Forall₂ Annotation.Form s.annotations
      (s.annotations.map Annotation.toJson) :=
    List.forall₂_map_right_iff.2 (List.forall₂_same.2 fun _ _ => .object)
  have hchoice : s.Choice s.written :=
    ⟨hendpoint s.localEndpoint, hendpoint s.remoteEndpoint, ⟨_, hforms, rfl⟩,
      fun _ _ _ _ => rfl⟩
  rw [toJson_eq]
  exact .object hchoice

end Span

open Schema

/-- A span with normal endpoints is read from each of its forms. Arrays that end in front of a
required field are too short, and no array may go on behind the item of the last field. -/
theorem forms_read_alike :
    (∀ (s : Span) (v : Value), s.Normal → s.Form v → Span.ofText v.render = .ok s) ∧
    (∀ s : Span, s.Form s.toJson) ∧
    (∀ (text : String) (items : List (List Char)), ArrayText text.toList items →
      items.length < 3 →
        List.Forall₂ Span.schema.Accepts (Span.Field.all.take items.length) items →
          Span.ofText text =
            .error (.data (.tooShort (if items = [] then 0 else 2) "Span" 13))) ∧
    (∀ (text : String) (item : List Char), ArrayText text.toList [item] →
      Annotation.schema.Accepts Annotation.Field.timestamp item →
        readDocument Annotation.ofJson text = .error (.data (.tooShort 1 "Annotation" 2))) ∧
    RefusesSurplus Span.ofJson Span.schema ∧ RefusesSurplus Endpoint.ofJson Endpoint.schema ∧
    RefusesSurplus Annotation.ofJson Annotation.schema := by
  have hevent (f : Annotation.Field) : ReadsWhole f.read := f.readsSound.readsWhole
  have hendpoint (f : Endpoint.Field) : ReadsWhole f.read := f.readsSound.readsWhole
  refine ⟨fun s v hnormal h => h.ofText hnormal, Span.form_toJson, ?short, ?shortEvent,
    refusesSurplus Span.ofRecord Span.Field.readsWhole Span.nodup_fields,
    refusesSurplus Endpoint.ofRecord hendpoint Endpoint.nodup_fields,
    refusesSurplus Annotation.ofRecord hevent Annotation.nodup_fields⟩
  case short =>
    intro text items htext hlength haccepted
    have hshort (optional : List Span.Field) {front rest : List Span.Field} {f : Span.Field}
        (hfields : Span.Field.all = front ++ (optional ++ f :: rest))
        (hfront : List.Forall₂ Span.schema.Accepts front items)
        (hoptional : ∀ g ∈ optional, g.absent ≠ none) (hrequired : f.absent = none) :=
      readDocument_short Span.ofRecord Span.Field.readsWhole Span.nodup_fields htext hfields hfront
        hoptional hrequired
    have hparent : ∀ g ∈ [Span.Field.parentId], g.absent ≠ none :=
      List.forall_mem_singleton.2 nofun
    match items with
    | [] => exact hshort [] rfl haccepted nofun rfl
    | [_] => exact hshort [.parentId] rfl haccepted hparent rfl
    | [_, _] => exact hshort [] rfl haccepted nofun rfl
  case shortEvent =>
    intro text item htext haccepted
    have hfront : List.Forall₂ Annotation.schema.Accepts [ Annotation.Field.timestamp] [item] :=
      .cons haccepted .nil
    have hfields : Annotation.schema.fields =
        [ Annotation.Field.timestamp] ++ ([] ++ Annotation.Field.value :: []) := rfl
    exact readDocument_short Annotation.ofRecord hevent Annotation.nodup_fields htext hfields
      hfront nofun rfl

/-- A span in an array that leaves out its last field, with endpoints and annotations in arrays,
and arrays that are too short or too long. -/
theorem forms_read_alike_sample :
    let w : Span.Field → Option Value
      | .localEndpoint => some (.array [])
      | .remoteEndpoint => some (.array [.text "db", .text "127.0.0.1", .null, .number 80])
      | .annotations => some (.array [.array [.number 1472470996238000, .text "ws"]])
      | f => Span.sample.written f
    Span.ofText (Value.array ((Span.Field.all.take 12).map fun f => (w f).getD f.blank)).render =
      .ok .sample ∧
    Span.ofText "[]" = .error (.data (.tooShort 0 "Span" 13)) ∧
    readDocument Annotation.ofJson "[0]" = .error (.data (.tooShort 1 "Annotation" 2)) ∧
    readDocument Endpoint.ofJson "[null,null,null,null,0]" = .error (.grammar .malformed) := by
  intro w
  obtain ⟨hforms, -, hshort, hevent, -, hendpoint, -⟩ := forms_read_alike
  refine ⟨?form, ?short, ?shortEvent, ?surplus⟩
  case form =>
    have hlocal : Endpoint.Form .empty (.array []) := .array 0 fun _ _ => rfl
    have hremote : Endpoint.Form ⟨some "db", some ⟨[127, 0, 0, 1], rfl⟩, none, some 80⟩
        (.array [.text "db", .text "127.0.0.1", .null, .number 80]) := .array 4 nofun
    have hchoice : Span.sample.Choice w := by
      refine ⟨.some hlocal, .some hremote, ⟨_, .cons .array .nil, rfl⟩, ?_⟩
      intro f hlocal hremote hevents
      cases f <;> first | rfl | contradiction
    have hdrop : ∀ f ∈ Span.Field.all.drop 12, Span.sample.record f =
        (Span.new Span.sample.traceId Span.sample.id).record f :=
      List.forall_mem_singleton.2 rfl
    exact hforms _ _ Span.normal_sample (.array hchoice 12 (by decide) hdrop)
  case short => exact hshort "[]" [] (.empty .nil .nil .nil) (by decide) .nil
  case shortEvent =>
    have htext : ArrayText "[0]".toList [['0']] := .items .nil ['0'] [] .nil
    have hzero := readDocument_of_readsAs (readUInt64 .number) (readsAs_render (.number 0))
    exact hevent "[0]" ['0'] htext ⟨(0 : UInt64), hzero.trans (readUInt64_number .number 0)⟩
  case surplus =>
    let null := Value.null.chars
    have htext : ArrayText "[null,null,null,null,0]".toList
        ([null, null, null, null] ++ [['0']]) :=
      .items .nil null [null, null, null, ['0']] .nil
    have hnull (f : Endpoint.Field) : Endpoint.schema.Accepts f null := by
      have hread := readDocument_of_readsAs f.read (readsAs_render .null)
      cases f <;> exact ⟨none, hread⟩
    have haccepted : List.Forall₂ Endpoint.schema.Accepts Endpoint.Field.all
        [null, null, null, null] :=
      .cons (hnull _) (.cons (hnull _) (.cons (hnull _) (.cons (hnull _) .nil)))
    have hzero : WellFormed (String.ofList ['0']) := wellFormed_render (.number 0)
    exact hendpoint _ _ _ htext (List.cons_ne_nil _ _) haccepted
      (List.forall_mem_singleton.2 hzero)

end SpanWire
