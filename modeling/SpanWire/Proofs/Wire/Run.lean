import SpanWire.Proofs.Wire.Overrun

/-!
Buffers after any writes, of which some did not find room. Whatever a write leaves behind, the next
one goes on from there, so that all the bytes stored so far stand in a row.
-/
namespace SpanWire.Wire.Buffer

/-- The buffer that a write leaves behind, whether or not it found room. -/
def attempt (b : Buffer) (w : Write) : Buffer :=
  (b.put w).buffer

/-- The buffer after some writes, each of which goes on where the one before it stopped. -/
def run (b : Buffer) (ws : List Write) : Buffer :=
  ws.foldl attempt b

/-- The bytes that a write has stored: those between the position before it and the one behind
it. -/
def gained (b : Buffer) (w : Write) : List UInt8 :=
  ((b.attempt w).bytes.extract b.pos (b.attempt w).pos).toList

/-- The bytes that some writes have stored, one write after the other. -/
def gainedAll (b : Buffer) : List Write → List UInt8
  | [] => []
  | w :: ws => b.gained w ++ gainedAll (b.attempt w) ws

/-- All that happened to a buffer is that bytes were stored at its position. -/
structure Grows (b : Buffer) (bs : List UInt8) (b' : Buffer) : Prop where
  room : bs = [] ∨ b.Fits bs.length
  buffer : b' = b.stored bs

namespace Grows

variable {b b' b'' : Buffer} {xs ys bs : List UInt8}

theorem refl (b : Buffer) : b.Grows [] b :=
  ⟨.inl rfl, rfl⟩

theorem trans (hxs : b.Grows xs b') (hys : b'.Grows ys b'') : b.Grows (xs ++ ys) b'' where
  room := by
    obtain ⟨hroom, rfl⟩ := hxs
    rcases hys.room with rfl | hfits
    · rwa [List.append_nil]
    · rw [fits_stored, ← List.length_append] at hfits
      exact .inr hfits
  buffer := by rw [hys.buffer, hxs.buffer, stored_append]

theorem storedAt (h : b.Grows bs b') : StoredAt b.bytes b.pos bs b'.bytes := by
  have hkept : b.Kept bs bs b' := ⟨List.prefix_rfl, h.room, h.buffer⟩
  exact hkept.storedAt

theorem pos (h : b.Grows bs b') : b'.pos = b.pos + bs.length := by
  rw [h.buffer, stored]

theorem pos_le (h : b.Grows bs b') (hpos : b.pos ≤ b.bytes.size) : b'.pos ≤ b.bytes.size := by
  rw [h.pos]
  rcases h.room with rfl | hfits
  · exact hpos
  · exact hfits

theorem eq_self (h : b.Grows bs b') (hpos : b.bytes.size < b.pos) : b' = b := by
  rcases h.room with rfl | hfits
  · exact h.buffer
  · unfold Fits at hfits
    omega

end Grows

theorem put_eq_done_of_fits {b : Buffer} {w : Write} (h : b.Fits w.encoding.length) :
    b.put w = .done (b.stored w.encoding) :=
  put_eq_done_iff.2 ⟨h, rfl⟩

theorem put_isOverrun_iff {b : Buffer} {w : Write} :
    (b.put w).isOverrun = true ↔ b.bytes.size < b.pos + w.encoding.length := by
  by_cases hfits : b.Fits w.encoding.length
  · rw [put_eq_done_of_fits hfits]
    unfold Fits at hfits
    exact iff_of_false nofun (by omega)
  · cases hput : b.put w with
    | done b' => exact absurd (put_eq_done_iff.1 hput).1 hfits
    | overrun b' => exact iff_of_true rfl (Nat.lt_of_not_le hfits)

/-- A write does nothing but to store bytes, the first ones of its own. -/
theorem exists_grows (b : Buffer) (w : Write) :
    ∃ bs, bs <+: w.encoding ∧ b.Grows bs (b.attempt w) := by
  unfold attempt
  cases hput : b.put w with
  | done b' =>
    obtain ⟨hfits, rfl⟩ := put_eq_done_iff.1 hput
    exact ⟨w.encoding, List.prefix_rfl, .inr hfits, rfl⟩
  | overrun b' =>
    obtain ⟨kept, hkept⟩ := put_eq_overrun hput
    exact ⟨kept, hkept.start, hkept.room, hkept.buffer⟩

/-- What was stored is what stands there. -/
theorem gained_eq {b : Buffer} {w : Write} {bs : List UInt8} (h : b.Grows bs (b.attempt w)) :
    b.gained w = bs := by
  rw [gained, h.pos]
  exact h.storedAt.inside

theorem grows_attempt (b : Buffer) (w : Write) : b.Grows (b.gained w) (b.attempt w) := by
  obtain ⟨bs, -, hgrows⟩ := b.exists_grows w
  rwa [gained_eq hgrows]

/-- Some writes one after the other do nothing but to store bytes, too. -/
theorem grows_run (b : Buffer) (ws : List Write) : b.Grows (b.gainedAll ws) (b.run ws) := by
  induction ws generalizing b with
  | nil => exact .refl b
  | cons w ws ih => exact (b.grows_attempt w).trans (ih (b.attempt w))

/-- Where bytes are stored one at a time, only the end of the buffer stops them. -/
theorem pos_of_putEach_eq_overrun {b b' : Buffer} {bs : List UInt8}
    (h : b.putEach bs = .overrun b') (hpos : b.pos ≤ b.bytes.size) : b'.pos = b.bytes.size := by
  induction bs generalizing b with
  | nil => contradiction
  | cons x xs ih =>
    rw [putEach] at h
    split at h
    · next hlt =>
      have hnext : b.pos + 1 ≤ (b.bytes.setIfInBounds b.pos x).size := by
        rw [Array.size_setIfInBounds]
        omega
      rw [ih h hnext, Array.size_setIfInBounds]
    · obtain rfl := Put.overrun.inj h
      omega

/-- A write that is no varint leaves the buffer as it was if it does not find room. -/
theorem eq_of_put_eq_overrun {b b' : Buffer} {w : Write} (h : b.put w = .overrun b')
    (hw : ∀ v, w ≠ .varint v) : b' = b := by
  have hwhole {bs : List UInt8} (h : b.putWhole bs = .overrun b') : b' = b := by
    rw [putWhole] at h
    split at h
    · contradiction
    · exact (Put.overrun.inj h).symm
  cases w with
  | byte x =>
    rw [put, putEach] at h
    split at h
    · contradiction
    · exact (Put.overrun.inj h).symm
  | varint v => exact absurd rfl (hw v)
  | bytes bs => exact hwhole h
  | fixed64 v => exact hwhole h
  | utf8 s => exact hwhole h

/-- A varint that does not find room leaves the first of its bytes, up to the end of the buffer. -/
theorem cutOff_of_varint {b b' : Buffer} {v : UInt64} (h : b.put (.varint v) = .overrun b')
    (hpos : b.pos ≤ b.bytes.size) :
    b.gained (.varint v) <+: varint v ∧ b.gained (.varint v) ≠ varint v ∧
      b'.pos = b.bytes.size := by
  obtain ⟨kept, hkept⟩ := put_eq_overrun h
  have hattempt : b.attempt (.varint v) = b' := by rw [attempt, h, Put.buffer]
  have hgained : b.gained (.varint v) = kept := by
    refine gained_eq ⟨hkept.room, ?_⟩
    rw [hattempt, hkept.buffer]
  have hfits : ¬ b.Fits (varint v).length := by
    intro hfits
    have hdone := put_eq_done_of_fits (w := .varint v) hfits
    rw [h] at hdone
    contradiction
  have hcut := hkept.cutOff (varint_ne_nil v) hfits
  rw [hgained]
  exact ⟨hcut.start, hcut.proper, pos_of_putEach_eq_overrun h hpos⟩

/-- Beyond the end of the buffer not even a write of no bytes finds room. -/
theorem put_of_size_lt {b : Buffer} (h : b.bytes.size < b.pos) (w : Write) :
    b.put w = .overrun b := by
  have hover : (b.put w).isOverrun = true := put_isOverrun_iff.2 (by omega)
  have hself : b.attempt w = b := (b.grows_attempt w).eq_self h
  unfold attempt at hself
  cases hput : b.put w with
  | done b' =>
    rw [hput] at hover
    contradiction
  | overrun b' =>
    rw [hput] at hself
    exact congrArg Put.overrun hself

/-- However many writes went before, with or without room, the bytes they have stored stand in a row
from the first position on, and nothing else is changed. A write finds room exactly when its whole
encoding does. It stores nothing otherwise, unless it is a varint, of which the first bytes then
fill the buffer up to its end. -/
theorem run_writes (b : Buffer) (ws : List Write) :
    let after := b.run ws
    after.pos = b.pos + (b.gainedAll ws).length ∧
    StoredAt b.bytes b.pos (b.gainedAll ws) after.bytes ∧
    (b.pos ≤ b.bytes.size → after.pos ≤ b.bytes.size) ∧
    (b.bytes.size < b.pos → after = b ∧ ∀ w, after.put w = .overrun b) ∧
    (∀ w, after.pos ≤ (after.attempt w).pos ∧
      ((after.put w).isOverrun = true ↔ b.bytes.size < after.pos + w.encoding.length) ∧
      ∀ next, (after.put w = .done next → after.gained w = w.encoding) ∧
        (after.put w = .overrun next → (∀ v, w ≠ .varint v) → next = after)) ∧
    ∀ v next, after.put (.varint v) = .overrun next → b.pos ≤ b.bytes.size →
      after.gained (.varint v) <+: varint v ∧ after.gained (.varint v) ≠ varint v ∧
        next.pos = b.bytes.size := by
  intro after
  have hgrows : b.Grows (b.gainedAll ws) after := b.grows_run ws
  have hsize : after.bytes.size = b.bytes.size := hgrows.storedAt.size
  refine ⟨hgrows.pos, hgrows.storedAt, hgrows.pos_le,
    fun hpos => ⟨hgrows.eq_self hpos, fun w => ?beyond⟩,
    fun w => ⟨?forward, ?room, fun next => ⟨fun hput => ?whole, eq_of_put_eq_overrun⟩⟩,
    fun v next hput hpos => ?varint⟩
  case beyond =>
    rw [hgrows.eq_self hpos]
    exact put_of_size_lt hpos w
  case forward =>
    rw [(after.grows_attempt w).pos]
    omega
  case room => rw [put_isOverrun_iff, hsize]
  case whole =>
    obtain ⟨hfits, rfl⟩ := put_eq_done_iff.1 hput
    refine gained_eq ⟨.inr hfits, ?_⟩
    rw [attempt, hput, Put.buffer]
  case varint =>
    have hcut := cutOff_of_varint hput (hsize ▸ hgrows.pos_le hpos)
    rwa [hsize] at hcut

/-- Of two bytes of a varint the first fills the buffer, of eight bytes of fixed width none is
stored, and beyond the end of a buffer nothing is ever changed. -/
theorem run_writes_sample :
    let b : Buffer := ⟨#[7, 7, 7, 7], 2⟩
    let after := b.run [.byte 1]
    after.pos ≤ b.bytes.size ∧ after.gained (.byte 9) = [9] ∧
    after.put (.fixed64 5) = .overrun after ∧
    (after.gained (.varint 300) <+: varint 300 ∧ after.gained (.varint 300) ≠ varint 300) ∧
    (⟨#[7], 2⟩ : Buffer).put (.bytes []) = .overrun ⟨#[7], 2⟩ := by
  intro b after
  obtain ⟨-, -, hwithin, -, hwrite, hvarint⟩ := run_writes b [.byte 1]
  obtain ⟨-, -, -, hbeyond, -, -⟩ := run_writes ⟨#[7], 2⟩ []
  have hpos : b.pos ≤ b.bytes.size := by decide
  have hdone : after.put (.byte 9) = .done ⟨#[7, 7, 1, 9], 4⟩ := by decide +kernel
  have hfixed : after.put (.fixed64 5) = .overrun ⟨#[7, 7, 1, 7], 3⟩ := by decide +kernel
  have hover : after.put (.varint 300) = .overrun ⟨#[7, 7, 1, 0xac], 4⟩ := by decide +kernel
  obtain ⟨hstart, hproper, -⟩ := hvarint 300 _ hover hpos
  refine ⟨hwithin hpos, ((hwrite (.byte 9)).2.2 _).1 hdone, ?_, ⟨hstart, hproper⟩,
    (hbeyond (by decide)).2 (.bytes [])⟩
  rw [hfixed, ((hwrite (.fixed64 5)).2.2 _).2 hfixed nofun]

end SpanWire.Wire.Buffer
