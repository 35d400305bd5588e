import SpanWire.Proofs.Json.Schema
import SpanWire.Proofs.Json.Whole

/-!
Records read from arrays. Items are read as the fields in whose places they stand; fields at the end
may go without one, as long as they are not required.
-/
namespace SpanWire.Json

open Progress

namespace Schema

variable {σ : Schema} {p : σ.Partial} {r : σ.Record}

/-- Items that are taken fill in the fields they stand for and leave the rest as it was. -/
theorem readItems_front {front : List σ.Field} (hnodup : front.Nodup) {ds : List Draft}
    (h : List.Forall₂ (fun f d => ∃ a, σ.read f d = .ok a) front ds) (p : σ.Partial)
    (index : Nat) :
    ∃ q, List.Forall₂ (fun f d => ∃ a, σ.read f d = .ok a ∧ q f = some a) front ds ∧
      (∀ f, f ∉ front → q f = p f) ∧
      ∀ cut rest more, σ.readItems p index cut (front ++ rest) (ds ++ more) =
        σ.readItems q (index + front.length) cut rest more := by
  induction h generalizing p index with
  | nil => exact ⟨p, .nil, fun _ _ => rfl, fun _ _ _ => rfl⟩
  | @cons f d front ds hd _ ih =>
    obtain ⟨hf, hfront⟩ := List.nodup_cons.1 hnodup
    obtain ⟨a, ha⟩ := hd
    obtain ⟨q, hin, hout, hread⟩ := ih hfront (p.set f a) (index + 1)
    have hset : q f = some a := by rw [hout f hf, Partial.set_self]
    refine ⟨q, .cons ⟨a, ha, hset⟩ hin, fun g hg => ?_, fun cut rest more => ?_⟩
    · obtain ⟨hne, hmem⟩ := not_or.1 (List.mem_cons.not.1 hg)
      rw [hout g hmem, Partial.set_of_ne p a (Ne.symm hne)]
    · have hnext := hread cut rest more
      rw [List.cons_append, List.cons_append, readItems, ha]
      rw [List.length_cons, Nat.add_comm front.length 1, ← Nat.add_assoc, ← hnext]
      rfl

/-- At the end of an array the fields that are left have to do without an item. -/
theorem readItems_absent {rest : List σ.Field} (h : ∀ f ∈ rest, σ.absent f ≠ none) (p : σ.Partial)
    (index : Nat) (more : List σ.Field) :
    σ.readItems p index none (rest ++ more) [] =
      σ.readItems p (index + rest.length) none more [] := by
  induction rest generalizing index with
  | nil => rfl
  | cons f rest ih =>
    obtain ⟨hf, hrest⟩ := List.forall_mem_cons.1 h
    obtain ⟨a, ha⟩ := Option.ne_none_iff_exists'.1 hf
    rw [List.cons_append, readItems, ha, List.length_cons, Nat.add_comm rest.length 1,
      ← Nat.add_assoc, ← ih hrest]
    rfl

/-- The blank of a field is read as the value that the field has when it is absent. -/
def Blanks (σ : Schema) (blank : σ.Field → Json.Value) : Prop :=
  ∀ f a, σ.absent f = some a → σ.read f (blank f).draft = .ok a

/-- Items for the fields up to some place fill in the record they describe, if the other fields are
as when they are absent. -/
theorem readItems_described (hnodup : σ.fields.Nodup) {item : σ.Field → Draft} (n : Nat)
    (hread : ∀ f ∈ σ.fields.take n, σ.read f (item f) = .ok (r f))
    (hdrop : ∀ f ∈ σ.fields.drop n, σ.absent f = some (r f)) :
    ∃ q, σ.readItems .empty 0 none σ.fields ((σ.fields.take n).map item) = .ok q ∧
      ∀ f, (q f).or (σ.absent f) = some (r f) := by
  have hfront : List.Forall₂ (fun f d => ∃ a, σ.read f d = .ok a) (σ.fields.take n)
      ((σ.fields.take n).map item) :=
    List.forall₂_map_right_iff.2 (List.forall₂_same.2 fun f hf => ⟨r f, hread f hf⟩)
  have hoptional : ∀ f ∈ σ.fields.drop n, σ.absent f ≠ none := by
    intro f hf
    rw [hdrop f hf]
    exact Option.some_ne_none _
  obtain ⟨q, hin, hout, hitems⟩ :=
    readItems_front (hnodup.sublist (List.take_sublist n _)) hfront .empty 0
  have hin := List.forall₂_same.1 (List.forall₂_map_right_iff.1 hin)
  refine ⟨q, ?_, fun f => ?_⟩
  · have hall := hitems none (σ.fields.drop n) []
    have hrest := readItems_absent hoptional q (0 + (σ.fields.take n).length) []
    rw [List.take_append_drop, List.append_nil] at hall
    rw [List.append_nil] at hrest
    rw [hall, hrest]
    rfl
  · by_cases hf : f ∈ σ.fields.take n
    · obtain ⟨a, ha, hq⟩ := hin f hf
      obtain rfl : r f = a := Except.ok.inj ((hread f hf).symm.trans ha)
      rw [hq, Option.some_or]
    · have hmem : f ∈ σ.fields.take n ++ σ.fields.drop n := by
        rw [List.take_append_drop]
        exact σ.complete f
      have hdropped := (List.mem_append.1 hmem).resolve_left hf
      have hnone : q f = none := hout f hf
      rw [hnone, Option.none_or, hdrop f hdropped]

/-- An array with an item for every field up to some place is read as the record it describes. -/
theorem readRecord_items (hnodup : σ.fields.Nodup) {written : σ.Field → Option Json.Value}
    (h : Describes written r) {blank : σ.Field → Json.Value} (hblank : σ.Blanks blank) (n : Nat)
    (hdrop : ∀ f ∈ σ.fields.drop n, σ.absent f = some (r f)) :
    σ.readRecord (Json.Value.array
      ((σ.fields.take n).map fun f => (written f).getD (blank f))).draft = .ok r := by
  have hread (f : σ.Field) : σ.read f ((written f).getD (blank f)).draft = .ok (r f) := by
    cases hw : written f with
    | none => exact hblank f (r f) (h.absent f hw)
    | some v => exact h.read f v hw
  obtain ⟨q, hq, hrecord⟩ := readItems_described hnodup n (fun f _ => hread f) hdrop
  rw [Json.Value.draft_array, List.map_map, readRecord, mapError_eq_ok, readFields]
  change (σ.readItems .empty 0 none σ.fields
    ((σ.fields.take n).map fun f => ((written f).getD (blank f)).draft) >>= σ.fill) = _
  rw [hq]
  exact fill_eq hrecord

/-- The text of an item is taken for a field. -/
def Accepts (σ : Schema) (f : σ.Field) (item : List Char) : Prop :=
  ∃ a, readDocument (σ.read f) (String.ofList item) = .ok a

theorem drafts_of_accepts (hwhole : ∀ f, ReadsWhole (σ.read f)) {fs : List σ.Field}
    {items : List (List Char)} (h : List.Forall₂ σ.Accepts fs items) :
    ∃ ds, List.Forall₂ ReadsAs items ds ∧
      List.Forall₂ (fun f d => ∃ a, σ.read f d = .ok a) fs ds := by
  induction h with
  | nil => exact ⟨[], .nil, .nil⟩
  | @cons f item fs items hitem _ ih =>
    obtain ⟨ds, hreads, haccepted⟩ := ih
    obtain ⟨a, ha⟩ := hitem
    obtain ⟨d, hd, hread⟩ := (readDocument_eq_ok (hwhole f)).1 ha
    rw [String.toList_ofList] at hd
    exact ⟨d :: ds, .cons hd hreads, .cons ⟨a, hread⟩ haccepted⟩

theorem drafts_of_wellFormed {items : List (List Char)}
    (h : ∀ item ∈ items, WellFormed (String.ofList item)) :
    ∃ ds, List.Forall₂ ReadsAs items ds := by
  induction items with
  | nil => exact ⟨[], .nil⟩
  | cons item items ih =>
    obtain ⟨hitem, hitems⟩ := List.forall_mem_cons.1 h
    obtain ⟨d, hd⟩ := wellFormed_iff.1 hitem
    obtain ⟨ds, hds⟩ := ih hitems
    rw [String.toList_ofList] at hd
    exact ⟨d :: ds, .cons hd hds⟩

variable {α : Type} (build : σ.Record → α)

/-- An array that ends in front of a required field is too short. What is told is the place of that
field. -/
theorem readDocument_short (hwhole : ∀ f, ReadsWhole (σ.read f)) (hnodup : σ.fields.Nodup)
    {text : String} {items : List (List Char)} {front optional rest : List σ.Field}
    {f : σ.Field} (htext : ArrayText text.toList items)
    (hfields : σ.fields = front ++ (optional ++ f :: rest))
    (haccepted : List.Forall₂ σ.Accepts front items)
    (hoptional : ∀ g ∈ optional, σ.absent g ≠ none) (hrequired : σ.absent f = none) :
    readDocument (fun d => (σ.readRecord d).map build) text =
      .error (.data (.tooShort (front.length + optional.length) σ.name σ.fields.length)) := by
  obtain ⟨ds, hreads, hds⟩ := drafts_of_accepts hwhole haccepted
  have hfront : front.Nodup := (List.nodup_append.1 (hfields ▸ hnodup)).1
  obtain ⟨q, -, -, hitems⟩ := readItems_front hfront hds .empty 0
  have hstop : σ.readItems .empty 0 none σ.fields ds =
      .error (.data (.tooShort (front.length + optional.length) σ.name σ.fields.length)) := by
    have hall := hitems none (optional ++ f :: rest) []
    rw [← hfields, List.append_nil, readItems_absent hoptional, readItems, hrequired,
      Nat.zero_add] at hall
    exact hall
  rw [readDocument_of_readsAs _ (htext.readsAs hreads), readRecord, readFields, hstop]
  rfl

/-- A reader takes no array that goes on behind the item of the last field. -/
def RefusesSurplus (read : Reader α) (σ : Schema) : Prop :=
  ∀ (text : String) (items more : List (List Char)), ArrayText text.toList (items ++ more) →
    more ≠ [] → List.Forall₂ σ.Accepts σ.fields items →
      (∀ item ∈ more, WellFormed (String.ofList item)) →
        readDocument read text = .error (.grammar .malformed)

theorem refusesSurplus (hwhole : ∀ f, ReadsWhole (σ.read f)) (hnodup : σ.fields.Nodup) :
    RefusesSurplus (fun d => (σ.readRecord d).map build) σ := by
  intro text items more htext hmore haccepted hwell
  obtain ⟨ds, hreads, hds⟩ := drafts_of_accepts hwhole haccepted
  obtain ⟨es, hmores⟩ := drafts_of_wellFormed hwell
  obtain ⟨q, -, -, hitems⟩ := readItems_front hnodup hds .empty 0
  have hstop : σ.readItems .empty 0 none σ.fields (ds ++ es) = .error (.grammar .malformed) := by
    have hall := hitems none [] es
    rw [List.append_nil] at hall
    rw [hall]
    cases hmores with
    | nil => exact absurd rfl hmore
    | cons => rfl
  have hread := htext.readsAs (List.rel_append hreads hmores)
  rw [readDocument_of_readsAs _ hread, readRecord, readFields, hstop]
  rfl

end Schema

end SpanWire.Json
