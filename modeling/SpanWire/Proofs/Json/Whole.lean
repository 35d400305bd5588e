import SpanWire.Proofs.Json.Array
import SpanWire.Proofs.Json.Sound

/-!
Readers that take whole values only. What such a reader takes of a text on its own, and why it
refuses it, is the same wherever the text stands.
-/
namespace SpanWire.Json

open Progress

/-- A reader takes nothing that is torn or cut off. -/
def ReadsWhole {α : Type} (read : Reader α) : Prop :=
  ∀ (d : Draft) (a : α), read d = .ok a → d.skipFault = none

section Readers

variable {α β : Type} {read : Reader α}

theorem ReadsSound.readsWhole {needed : Nat} (h : ReadsSound read anyDraft needed) :
    ReadsWhole read := by
  intro d a hread
  have hsound := h d a 0 trivial hread
  exact Draft.skipFault_of_isSound hsound

theorem ReadsWhole.map (h : ReadsWhole read) (f : α → β) :
    ReadsWhole fun d => (read d).map f := by
  intro d b hread
  obtain ⟨a, ha, -⟩ := map_eq_ok.1 hread
  exact h d a ha

theorem ReadsWhole.option (h : ReadsWhole read) : ReadsWhole (readOption read) := by
  intro d o hread
  unfold readOption at hread
  split at hread
  · obtain ⟨u, htorn, -⟩ := map_eq_ok.1 hread
    exact failOn_eq_ok htorn
  · exact h.map some d o hread

/-- An array is closed, whatever its items are. -/
theorem readsWhole_list (read : Reader α) : ReadsWhole (readList read) := by
  intro d as hread
  unfold readList at hread
  split at hread
  · obtain ⟨xs, -, hread⟩ := bind_eq_ok.1 hread
    obtain ⟨u, hcut, -⟩ := bind_eq_ok.1 hread
    exact failOn_eq_ok hcut
  · exact absurd hread (wrongType_ne_ok _ _ as)

theorem readsWhole_record (σ : Schema) : ReadsWhole σ.readRecord :=
  fun _ _ hread => Schema.skipFault_of_readRecord hread

theorem readsWhole_skip : ReadsWhole skip :=
  fun _ _ hread => failOn_eq_ok hread

/-- A text on its own is read as its draft is. -/
theorem readDocument_of_readsAs (read : Reader α) {text : String} {d : Draft}
    (h : ReadsAs text.toList d) : readDocument read text = read d := by
  obtain ⟨hdoc, -⟩ := readsAs_iff_ofText.1 h
  rw [readDocument, hdoc]
  cases read d <;> rfl

theorem readDocument_eq_ok {text : String} {a : α} (hwhole : ReadsWhole read) :
    readDocument read text = .ok a ↔ ∃ d, ReadsAs text.toList d ∧ read d = .ok a := by
  constructor
  · intro h
    obtain ⟨b, hb, h⟩ := bind_eq_ok.1 h
    have hfault := hwhole _ b hb
    cases hdoc : Document.ofText text with
    | mk d trailing =>
      rw [hdoc] at hb h hfault
      cases trailing with
      | true => contradiction
      | false =>
        obtain rfl := Except.ok.inj h
        exact ⟨d, readsAs_iff_ofText.2 ⟨hdoc, hfault⟩, hb⟩
  · rintro ⟨d, htext, hd⟩
    rw [readDocument_of_readsAs read htext, hd]

end Readers

/-- The text of one value, whatever the value is. -/
def WellFormed (text : String) : Prop :=
  readDocument skip text = .ok ()

theorem wellFormed_iff {text : String} : WellFormed text ↔ ∃ d, ReadsAs text.toList d := by
  rw [WellFormed, readDocument_eq_ok readsWhole_skip]
  refine exists_congr fun d => and_iff_left_of_imp fun h => ?_
  obtain ⟨-, hwhole⟩ := readsAs_iff_ofText.1 h
  rw [skip, hwhole]
  rfl

theorem ReadsWhole.wellFormed {α : Type} {read : Reader α} (hwhole : ReadsWhole read)
    {text : String} {a : α} (h : readDocument read text = .ok a) : WellFormed text := by
  obtain ⟨d, hd, -⟩ := (readDocument_eq_ok hwhole).1 h
  exact wellFormed_iff.2 ⟨d, hd⟩

end SpanWire.Json
