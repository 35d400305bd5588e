import Mathlib.Order.Bounds.Basic
import SpanWire.Proofs.Wire.Codec

/-!
Which warnings the encoding of a list gives. Where the list is encoded in one piece, all sizes are
computed first; where it is written into a given buffer, each size is computed right before its
span, so that the spans behind the end of the buffer are never looked at.
-/
namespace SpanWire.Wire

/-- Whether the frames of some spans have room behind the position. No frames have room anywhere. -/
def Buffer.FitsFrames (b : Buffer) (spans : List Span) : Prop :=
  spans = [] ∨ b.Fits (encodeList spans).size

namespace Buffer

variable {b : Buffer} {s : Span} {spans : List Span}

theorem fitsFrames_nil (b : Buffer) : b.FitsFrames [] :=
  .inl rfl

theorem fitsFrames_iff (h : spans ≠ []) : b.FitsFrames spans ↔ b.Fits (encodeList spans).size :=
  or_iff_right h

theorem fitsFrames_singleton : b.FitsFrames [s] ↔ b.Fits (encodings s.frameWrites).length := by
  rw [fitsFrames_iff (List.cons_ne_nil s []), encodeList_eq, List.size_toArray,
    List.flatMap_singleton]

/-- Behind a frame that has room the others have room if all of them together have. -/
theorem fitsFrames_cons (h : b.Fits (encodings s.frameWrites).length) :
    b.FitsFrames (s :: spans) ↔ (b.stored (encodings s.frameWrites)).FitsFrames spans := by
  cases spans with
  | nil => exact iff_of_true (fitsFrames_singleton.2 h) (fitsFrames_nil _)
  | cons t spans =>
    rw [fitsFrames_iff (List.cons_ne_nil s _), fitsFrames_iff (List.cons_ne_nil t _), fits_stored,
      encodeList_eq, encodeList_eq, List.size_toArray, List.size_toArray, List.flatMap_cons,
      encodings_append, List.length_append]

theorem FitsFrames.take (h : b.FitsFrames spans) (k : Nat) : b.FitsFrames (spans.take k) := by
  rcases h with rfl | hfits
  · rw [List.take_nil]
    exact fitsFrames_nil b
  · have hcut := encodeList_append (spans.take k) (spans.drop k)
    rw [List.take_append_drop] at hcut
    rw [hcut, Array.size_append, Fits] at hfits
    exact .inr (show b.pos + _ ≤ _ by omega)

/-- The frame of a span is written exactly when it has room. -/
theorem writeFrame_cases (b : Buffer) (s : Span) :
    (b.Fits (encodings s.frameWrites).length ∧
      s.writeFrame s.size b = .done (b.stored (encodings s.frameWrites))) ∨
    ¬ b.Fits (encodings s.frameWrites).length ∧ ∃ b', s.writeFrame s.size b = .overrun b' := by
  have hne : s.frameWrites ≠ [] := by simp [Span.frameWrites]
  rw [s.writeFrame_eq]
  cases hput : b.putAll s.frameWrites with
  | done b' =>
    obtain ⟨hfits, rfl⟩ := (putAll_eq_done_iff hne).1 hput
    exact .inl ⟨hfits, rfl⟩
  | overrun b' =>
    refine .inr ⟨fun hfits => ?_, b', rfl⟩
    rw [(putAll_eq_done_iff hne).2 ⟨hfits, rfl⟩] at hput
    contradiction

end Buffer

namespace Codec

open Buffer (FitsFrames fitsFrames_nil fitsFrames_singleton fitsFrames_cons)

/-- Writing a list gets to as many spans: to all of them, or to those up to the first one whose
frame has no room. -/
structure Reaches (b : Buffer) (spans : List Span) (k : Nat) (overrun : Bool) : Prop where
  before : ∀ j < k, b.FitsFrames (spans.take j)
  overrun_iff : overrun = true ↔ ¬ b.FitsFrames (spans.take k)
  all : overrun = false → spans.take k = spans

namespace Reaches

variable {b : Buffer} {s : Span} {spans : List Span} {k : Nat} {overrun : Bool}

theorem nil (b : Buffer) : Reaches b [] 0 false where
  before _ h := absurd h (Nat.not_lt_zero _)
  overrun_iff := iff_of_false Bool.false_ne_true (not_not_intro (fitsFrames_nil b))
  all _ := rfl

theorem stop (h : ¬ b.Fits (encodings s.frameWrites).length) :
    Reaches b (s :: spans) 1 true where
  before j hj := by
    obtain rfl : j = 0 := by omega
    exact fitsFrames_nil b
  overrun_iff := iff_of_true rfl (mt fitsFrames_singleton.1 h)
  all := nofun

theorem step (hfits : b.Fits (encodings s.frameWrites).length)
    (h : Reaches (b.stored (encodings s.frameWrites)) spans k overrun) :
    Reaches b (s :: spans) (k + 1) overrun where
  before j hj := by
    cases j with
    | zero => exact fitsFrames_nil b
    | succ j => exact (fitsFrames_cons hfits).2 (h.before j (by omega))
  overrun_iff := by
    rw [List.take_succ_cons, fitsFrames_cons hfits]
    exact h.overrun_iff
  all hdone := by rw [List.take_succ_cons, h.all hdone]

/-- The end is run over exactly when not all frames have room. -/
theorem overrun_eq_true_iff (h : Reaches b spans k overrun) :
    overrun = true ↔ ¬ b.FitsFrames spans := by
  cases overrun with
  | true => exact iff_of_true rfl fun hfits => h.overrun_iff.1 rfl (hfits.take k)
  | false =>
    refine iff_of_false Bool.false_ne_true (not_not_intro ?_)
    have hall := not_not.1 (mt h.overrun_iff.2 Bool.false_ne_true)
    rwa [h.all rfl] at hall

/-- It ends with the least number of frames that have no room together. -/
theorem isLeast (h : Reaches b spans k true) :
    IsLeast {k | ¬ b.FitsFrames (spans.take k)} k := by
  refine ⟨h.overrun_iff.1 rfl, fun j hj => ?_⟩
  by_contra hlt
  exact hj (h.before j (Nat.lt_of_not_le hlt))

end Reaches

/-- The warnings of a list that is written are those of the spans it gets to. -/
theorem writeList_reaches (c : Codec) (b : Buffer) (spans : List Span) :
    ∃ k, Reaches b spans k (c.writeList b spans).value.isOverrun ∧
      (c.writeList b spans).warnings = (spans.take k).flatMap c.warningsOf := by
  induction spans generalizing b with
  | nil => exact ⟨0, .nil b, rfl⟩
  | cons s spans ih =>
    rw [writeList_cons]
    rcases b.writeFrame_cases s with ⟨hfits, hput⟩ | ⟨hfits, b', hput⟩
    · obtain ⟨k, hk, hwarnings⟩ := ih (b.stored (encodings s.frameWrites))
      rw [hput]
      refine ⟨k + 1, hk.step hfits, ?_⟩
      rw [List.take_succ_cons, List.flatMap_cons, ← hwarnings]
    · rw [hput]
      exact ⟨1, .stop hfits, by simp⟩

theorem perform_writeList_warnings (c : Codec) (out : Array UInt8) (pos : Nat)
    (spans : List Span) :
    (c.perform out (.writeList spans pos)).warnings =
      (c.writeList ⟨out, pos⟩ spans).warnings := by
  rw [perform]
  cases (c.writeList ⟨out, pos⟩ spans).value <;> rfl

/-- A list that is written has an answer that says whether the end was run over. -/
theorem perform_writeList_answer (c : Codec) (out : Array UInt8) (pos : Nat) (spans : List Span) :
    (c.writeList ⟨out, pos⟩ spans).value.isOverrun = true ∧
      (c.perform out (.writeList spans pos)).value.1 = .written none ∨
    (c.writeList ⟨out, pos⟩ spans).value.isOverrun = false ∧
      ∃ n, (c.perform out (.writeList spans pos)).value.1 = .written (some n) := by
  rw [perform_writeList rfl]
  cases (c.writeList ⟨out, pos⟩ spans).value with
  | done b => exact .inr ⟨rfl, _, rfl⟩
  | overrun b => exact .inl ⟨rfl, rfl⟩

/-- Every span of a list that is encoded gives the warnings of its size, each time it occurs. A list
that is written gives the same ones if its frames have room, and otherwise those of as many spans
as it takes until their frames have none. -/
theorem perform_list_warnings (c : Codec) (out : Array UInt8) (pos : Nat) (spans : List Span) :
    let sized := fun s => (c.perform out (.size s)).warnings
    let listed := (c.perform out (.encodeList spans)).warnings
    let written := c.perform out (.writeList spans pos)
    listed = spans.flatMap sized ∧
    (∀ w, listed.count w = (spans.map fun s => (sized s).count w).sum) ∧
    (FitsFrames ⟨out, pos⟩ spans →
      (∃ n, written.value.1 = .written (some n)) ∧ written.warnings = listed) ∧
    (¬ FitsFrames ⟨out, pos⟩ spans →
      written.value.1 = .written none ∧
      ∃ k, IsLeast {k | ¬ FitsFrames ⟨out, pos⟩ (spans.take k)} k ∧
        written.warnings = (spans.take k).flatMap sized) ∧
    written.warnings <+: listed := by
  intro sized listed written
  obtain ⟨k, hreaches, hwarnings⟩ := c.writeList_reaches ⟨out, pos⟩ spans
  rw [← perform_writeList_warnings] at hwarnings
  have hlisted : listed = spans.flatMap sized := c.encodeList_warnings spans
  refine ⟨hlisted, fun w => ?count, fun hfits => ?done, fun hfits => ?overrun, ?start⟩
  case count =>
    rw [hlisted]
    exact List.count_flatMap
  case done =>
    rcases c.perform_writeList_answer out pos spans with ⟨hover, -⟩ | ⟨hdone, hanswer⟩
    · exact absurd hfits (hreaches.overrun_eq_true_iff.1 hover)
    · rw [hreaches.all hdone] at hwarnings
      exact ⟨hanswer, hwarnings.trans hlisted.symm⟩
  case overrun =>
    have hover := hreaches.overrun_eq_true_iff.2 hfits
    rw [hover] at hreaches
    rcases c.perform_writeList_answer out pos spans with ⟨-, hanswer⟩ | ⟨hdone, -⟩
    · exact ⟨hanswer, k, hreaches.isLeast, hwarnings⟩
    · rw [hover] at hdone
      contradiction
  case start =>
    obtain ⟨rest, hrest⟩ := spans.take_prefix k
    rw [hlisted]
    change (c.perform out (.writeList spans pos)).warnings <+: spans.flatMap c.warningsOf
    rw [hwarnings, ← hrest, List.flatMap_append, hrest]
    exact List.prefix_append _ _

/-- Three times the same span, where the second one has no room: it warns twice, of the three times
that it would. -/
theorem perform_list_warnings_sample :
    let c : Codec := ⟨⟨8⟩, true⟩
    let out := Array.replicate 150 1
    let spans := [Span.sample, Span.sample, Span.sample]
    (c.perform out (.size .sample)).warnings.length = 2 ∧
    (∀ w, (c.perform out (.encodeList spans)).warnings.count w =
      3 * (c.perform out (.size .sample)).warnings.count w) ∧
    (c.perform out (.writeList spans 5)).value.1 = .written none ∧
    (c.perform out (.writeList spans 5)).warnings =
      (c.perform out (.size .sample)).warnings ++ (c.perform out (.size .sample)).warnings := by
  intro c out spans
  have hfits (spans : List Span) (h : spans ≠ []) :
      FitsFrames ⟨out, 5⟩ spans ↔ 5 + framedSize spans ≤ 150 := by
    rw [Buffer.fitsFrames_iff h, size_encodeList, Buffer.Fits, Array.size_replicate]
  have hone : FitsFrames ⟨out, 5⟩ (spans.take 1) :=
    (hfits _ (List.cons_ne_nil _ _)).2 (by decide)
  have htwo : ¬ FitsFrames ⟨out, 5⟩ (spans.take 2) :=
    (hfits _ (List.cons_ne_nil _ _)).not.2 (by decide)
  have hthree : ¬ FitsFrames ⟨out, 5⟩ spans :=
    (hfits _ (List.cons_ne_nil _ _)).not.2 (by decide)
  obtain ⟨-, hcount, -, hover, -⟩ := c.perform_list_warnings out 5 spans
  obtain ⟨hanswer, k, hleast, hwarnings⟩ := hover hthree
  have hk : k = 2 := by
    have hle : k ≤ 2 := hleast.2 htwo
    have hne : k ≠ 0 ∧ k ≠ 1 := by
      constructor <;> rintro rfl
      · exact hleast.1 (fitsFrames_nil _)
      · exact hleast.1 hone
    omega
  refine ⟨by decide +kernel, fun w => ?_, hanswer, ?_⟩
  · rw [hcount]
    simp [spans]
    omega
  · rw [hwarnings, hk]
    simp [spans]

end Codec

end SpanWire.Wire
