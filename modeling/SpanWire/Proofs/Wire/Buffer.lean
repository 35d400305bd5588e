import SpanWire.Proofs.Wire.Varint
import SpanWire.Wire.Buffer

/-! What writes store: their bytes from the position on, when there is room for them all. -/
namespace SpanWire.Wire

/-- The bytes of several writes, one after the other. -/
def encodings (ws : List Write) : List UInt8 :=
  ws.flatMap Write.encoding

@[simp] theorem encodings_nil : encodings [] = [] := rfl

@[simp] theorem encodings_cons (w : Write) (ws : List Write) :
    encodings (w :: ws) = w.encoding ++ encodings ws := rfl

@[simp] theorem encodings_append (ws vs : List Write) :
    encodings (ws ++ vs) = encodings ws ++ encodings vs := List.flatMap_append

namespace Buffer

/-- Whether as many bytes have room between the position and the end. -/
def Fits (b : Buffer) (n : Nat) : Prop :=
  b.pos + n ≤ b.bytes.size

/-- The buffer after bytes were stored at its position. -/
def stored (b : Buffer) (bs : List UInt8) : Buffer :=
  ⟨store b.bytes b.pos bs, b.pos + bs.length⟩

@[simp] theorem size_store (bytes : Array UInt8) (pos : Nat) (bs : List UInt8) :
    (store bytes pos bs).size = bytes.size := by
  induction bs generalizing bytes pos with
  | nil => rfl
  | cons x xs ih => rw [store, ih, Array.size_setIfInBounds]

theorem store_append (bytes : Array UInt8) (pos : Nat) (xs ys : List UInt8) :
    store bytes pos (xs ++ ys) = store (store bytes pos xs) (pos + xs.length) ys := by
  induction xs generalizing bytes pos with
  | nil => rfl
  | cons x xs ih =>
    rw [List.cons_append, store, store, ih, List.length_cons, Nat.add_right_comm, Nat.add_assoc]

/-- Storing replaces the bytes from the position on, and none before or behind them. -/
theorem toList_store {bytes : Array UInt8} {pos : Nat} {bs : List UInt8}
    (h : pos + bs.length ≤ bytes.size) :
    (store bytes pos bs).toList =
      bytes.toList.take pos ++ bs ++ bytes.toList.drop (pos + bs.length) := by
  induction bs generalizing bytes pos with
  | nil => simp [store]
  | cons x xs ih =>
    rw [List.length_cons] at h
    have hpos : pos < bytes.toList.length := by
      rw [Array.length_toList]
      omega
    have htake : (bytes.toList.set pos x).take (pos + 1) = bytes.toList.take pos ++ [x] := by
      rw [List.take_succ_eq_append_getElem (by simpa using hpos),
        List.take_set_of_le (Nat.le_refl _), List.getElem_set_self]
    rw [store, ih (by rw [Array.size_setIfInBounds]; omega), Array.toList_setIfInBounds, htake,
      List.drop_set_of_lt (by omega), List.length_cons, List.append_assoc, List.append_assoc,
      List.append_assoc, Nat.add_right_comm, Nat.add_assoc]
    rfl

theorem extract_store {bytes : Array UInt8} {pos : Nat} {bs : List UInt8}
    (h : pos + bs.length ≤ bytes.size) :
    ((store bytes pos bs).extract pos (pos + bs.length)).toList = bs := by
  have hpos : (bytes.toList.take pos).length = pos := by
    rw [List.length_take, Array.length_toList]
    omega
  rw [Array.toList_extract, List.extract_eq_take_drop, toList_store h, List.append_assoc,
    List.drop_left' hpos, Nat.add_sub_cancel_left, List.take_left' rfl]

/-- Bytes before the position and behind what is stored stay. -/
theorem getElem?_store_of_outside {bytes : Array UInt8} {pos i : Nat} {bs : List UInt8}
    (h : i < pos ∨ pos + bs.length ≤ i) : (store bytes pos bs)[i]? = bytes[i]? := by
  induction bs generalizing bytes pos with
  | nil => rfl
  | cons x xs ih =>
    rw [List.length_cons] at h
    rw [store, ih (by omega), Array.getElem?_setIfInBounds_ne (by omega)]

@[simp] theorem size_stored (b : Buffer) (bs : List UInt8) :
    (b.stored bs).bytes.size = b.bytes.size := size_store ..

theorem stored_nil (b : Buffer) : b.stored [] = b := rfl

theorem stored_append (b : Buffer) (xs ys : List UInt8) :
    b.stored (xs ++ ys) = (b.stored xs).stored ys := by
  simp only [stored, store_append, List.length_append, Nat.add_assoc]

theorem fits_stored (b : Buffer) (bs : List UInt8) (n : Nat) :
    (b.stored bs).Fits n ↔ b.Fits (bs.length + n) := by
  rw [Fits, Fits, size_stored, stored, Nat.add_assoc]

/-- The bytes stand in the second array from the position on, and all else is as in the first. -/
structure StoredAt (bytes : Array UInt8) (pos : Nat) (bs : List UInt8) (bytes' : Array UInt8) :
    Prop where
  size : bytes'.size = bytes.size
  inside : (bytes'.extract pos (pos + bs.length)).toList = bs
  outside : ∀ i, i < pos ∨ pos + bs.length ≤ i → bytes'[i]? = bytes[i]?

theorem storedAt_stored {b : Buffer} {bs : List UInt8} (h : b.Fits bs.length) :
    StoredAt b.bytes b.pos bs (b.stored bs).bytes :=
  ⟨size_store .., extract_store h, fun _ => getElem?_store_of_outside⟩

theorem putEach_eq_done_iff {b b' : Buffer} {bs : List UInt8} (h : bs ≠ []) :
    b.putEach bs = .done b' ↔ b.Fits bs.length ∧ b' = b.stored bs := by
  induction bs generalizing b with
  | nil => contradiction
  | cons x xs ih =>
    rw [putEach]
    by_cases hpos : b.pos < b.bytes.size
    · have hfits : b.Fits (x :: xs).length ↔ (b.stored [x]).Fits xs.length := by
        rw [fits_stored, List.length_cons, List.length_singleton, Nat.add_comm]
      rw [if_pos hpos, hfits, show b.stored (x :: xs) = (b.stored [x]).stored xs from
        stored_append b [x] xs]
      cases xs with
      | nil =>
        have hroom : (b.stored [x]).Fits 0 := (fits_stored b [x] 0).2 hpos
        change Put.done (b.stored [x]) = .done b' ↔ _
        rw [stored_nil, Put.done.injEq]
        exact ⟨fun he => ⟨hroom, he.symm⟩, fun he => he.2.symm⟩
      | cons y ys => exact ih (List.cons_ne_nil y ys)
    · have hfits : ¬ b.Fits (x :: xs).length := by
        rw [Fits, List.length_cons]
        omega
      rw [if_neg hpos]
      exact ⟨nofun, fun he => absurd he.1 hfits⟩

theorem put_eq_done_iff {b b' : Buffer} {w : Write} :
    b.put w = .done b' ↔ b.Fits w.encoding.length ∧ b' = b.stored w.encoding := by
  have hwhole : ∀ bs, b.putWhole bs = .done b' ↔ b.Fits bs.length ∧ b' = b.stored bs := by
    intro bs
    rw [putWhole]
    by_cases hfits : b.pos + bs.length ≤ b.bytes.size
    · simpa [hfits, Fits, stored] using eq_comm
    · simp [hfits, Fits]
  cases w with
  | byte x => exact putEach_eq_done_iff (List.cons_ne_nil x [])
  | varint v => exact putEach_eq_done_iff (varint_ne_nil v)
  | bytes bs => exact hwhole _
  | fixed64 v => exact hwhole _
  | utf8 s => exact hwhole _

/-- Writes go through exactly when all their bytes have room, and then store all of them. -/
theorem putAll_eq_done_iff {b b' : Buffer} {ws : List Write} (h : ws ≠ []) :
    b.putAll ws = .done b' ↔ b.Fits (encodings ws).length ∧ b' = b.stored (encodings ws) := by
  induction ws generalizing b with
  | nil => contradiction
  | cons w ws ih =>
    rw [putAll, encodings_cons, List.length_append, stored_append]
    by_cases hw : b.Fits w.encoding.length
    · rw [put_eq_done_iff.2 ⟨hw, rfl⟩, ← fits_stored]
      cases ws with
      | nil =>
        have hroom : (b.stored w.encoding).Fits 0 := (fits_stored ..).2 hw
        change Put.done (b.stored w.encoding) = .done b' ↔ _
        rw [encodings_nil, stored_nil, Put.done.injEq]
        exact ⟨fun he => ⟨hroom, he.symm⟩, fun he => he.2.symm⟩
      | cons v vs => exact ih (List.cons_ne_nil v vs)
    · have hfits : ¬ b.Fits (w.encoding.length + (encodings ws).length) := by
        rw [Fits] at hw ⊢
        omega
      cases hput : b.put w with
      | done b₁ => exact absurd (put_eq_done_iff.1 hput).1 hw
      | overrun b₁ => exact ⟨nofun, fun he => absurd he.1 hfits⟩

/-- A buffer of the right size is filled. -/
theorem putAll_zeros {ws : List Write} {n : Nat} (h : (encodings ws).length = n) :
    (zeros n).putAll ws = .done ⟨(encodings ws).toArray, n⟩ := by
  subst h
  cases ws with
  | nil => rfl
  | cons w ws =>
    refine (putAll_eq_done_iff (List.cons_ne_nil w ws)).2 ⟨by simp [Fits, zeros], ?_⟩
    generalize encodings (w :: ws) = bs
    have hbytes : store (Array.replicate bs.length 0) 0 bs = bs.toArray := by
      rw [← Array.toList_inj, toList_store (by simp)]
      simp
    rw [stored, zeros, hbytes, Nat.zero_add]

end Buffer

end SpanWire.Wire
