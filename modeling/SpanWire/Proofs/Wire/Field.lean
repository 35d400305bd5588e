import SpanWire.Proofs.Wire.Varint
import SpanWire.Wire.Buffer

/-!
Fields as the wire format has them: a number, a form and a payload, whatever message they belong
to. A reader takes a sequence of bytes apart into fields and leaves no byte over.
-/
namespace SpanWire.Wire

/-- The number that bytes write, the least significant byte first. -/
def littleEndian : List UInt8 → Nat
  | [] => 0
  | b :: bs => b.toNat + 256 * littleEndian bs

def toLittleEndian : Nat → Nat → List UInt8
  | 0, _ => []
  | count + 1, n => UInt8.ofNat (n % 256) :: toLittleEndian count (n / 256)

inductive Payload
  | varint (v : UInt64)
  | fixed64 (v : UInt64)
  | delimited (bytes : List UInt8)
  deriving DecidableEq

structure WireField where
  number : Nat
  payload : Payload
  deriving DecidableEq

namespace WireField

/-- The form of the payload stands in the three low bits of the key. -/
def bytes : WireField → List UInt8
  | ⟨number, .varint v⟩ => leb128 (8 * number) ++ leb128 v.toNat
  | ⟨number, .fixed64 v⟩ => leb128 (8 * number + 1) ++ toLittleEndian 8 v.toNat
  | ⟨number, .delimited bs⟩ => leb128 (8 * number + 2) ++ (leb128 bs.length ++ bs)

/-- Numbers have 29 bits and lengths have 64. -/
def Fits : WireField → Prop
  | ⟨number, .delimited bs⟩ => number < 2 ^ 29 ∧ bs.length < 2 ^ 64
  | ⟨number, _⟩ => number < 2 ^ 29

end WireField

def takeFixed64 (bs : List UInt8) : Option (UInt64 × List UInt8) :=
  if bs.length < 8 then none else some (UInt64.ofNat (littleEndian (bs.take 8)), bs.drop 8)

def takeDelimited (bs : List UInt8) : Option (List UInt8 × List UInt8) := do
  let (length, rest) ← takeVarint bs
  if rest.length < length.toNat then none
  else some (rest.take length.toNat, rest.drop length.toNat)

/-- Reads the payload of a field whose key is given. -/
def takePayload (key : Nat) (bs : List UInt8) : Option (WireField × List UInt8) :=
  match key % 8 with
  | 0 => (takeVarint bs).map fun (v, rest) => (⟨key / 8, .varint v⟩, rest)
  | 1 => (takeFixed64 bs).map fun (v, rest) => (⟨key / 8, .fixed64 v⟩, rest)
  | 2 => (takeDelimited bs).map fun (v, rest) => (⟨key / 8, .delimited v⟩, rest)
  | _ => none

def takeField (bs : List UInt8) : Option (WireField × List UInt8) := do
  let (key, rest) ← takeVarint bs
  takePayload key.toNat rest

theorem takePayload_shortens {key : Nat} {f : WireField} {bs rest : List UInt8}
    (h : takePayload key bs = some (f, rest)) : rest.length ≤ bs.length := by
  rw [takePayload] at h
  split at h
  · obtain ⟨⟨v, r⟩, hr, he⟩ := Option.map_eq_some_iff.1 h
    simp only [Prod.mk.injEq] at he
    exact he.2 ▸ Nat.le_of_lt (takeVarint_shortens hr)
  · obtain ⟨⟨v, r⟩, hr, he⟩ := Option.map_eq_some_iff.1 h
    simp only [Prod.mk.injEq] at he
    rw [takeFixed64] at hr
    split at hr
    · contradiction
    · simp only [Option.some.injEq, Prod.mk.injEq] at hr
      rw [← he.2, ← hr.2, List.length_drop]
      omega
  · obtain ⟨⟨v, r⟩, hr, he⟩ := Option.map_eq_some_iff.1 h
    simp only [Prod.mk.injEq] at he
    obtain ⟨⟨length, tail⟩, hl, ht⟩ := Option.bind_eq_some_iff.1 hr
    have := takeVarint_shortens hl
    dsimp only at ht
    split at ht
    · contradiction
    · simp only [Option.some.injEq, Prod.mk.injEq] at ht
      rw [← he.2, ← ht.2, List.length_drop]
      omega
  · contradiction

theorem takeField_shortens {f : WireField} {bs rest : List UInt8}
    (h : takeField bs = some (f, rest)) : rest.length < bs.length := by
  obtain ⟨⟨key, tail⟩, hk, ht⟩ := Option.bind_eq_some_iff.1 h
  exact Nat.lt_of_le_of_lt (takePayload_shortens ht) (takeVarint_shortens hk)

/-- All fields of a message. Bytes that are no field make the whole unreadable. -/
def readFields (bs : List UInt8) : Option (List WireField) :=
  match bs with
  | [] => some []
  | b :: bs =>
    match _ : takeField (b :: bs) with
    | none => none
    | some (f, rest) => (readFields rest).map (f :: ·)
termination_by bs.length
decreasing_by exact takeField_shortens ‹_›

theorem length_toLittleEndian (count n : Nat) : (toLittleEndian count n).length = count := by
  induction count generalizing n with
  | zero => rfl
  | succ count ih => rw [toLittleEndian, List.length_cons, ih]

theorem littleEndian_toLittleEndian (count n : Nat) :
    littleEndian (toLittleEndian count n) = n % 256 ^ count := by
  induction count generalizing n with
  | zero => simp [toLittleEndian, littleEndian, Nat.mod_one]
  | succ count ih =>
    have hb : (UInt8.ofNat (n % 256)).toNat = n % 256 := by
      rw [UInt8.toNat_ofNat']
      omega
    rw [toLittleEndian, littleEndian, hb, ih, Nat.pow_succ', Nat.mod_mul]

theorem takeFixed64_append (v : UInt64) (rest : List UInt8) :
    takeFixed64 (toLittleEndian 8 v.toNat ++ rest) = some (v, rest) := by
  have hlen := length_toLittleEndian 8 v.toNat
  have hmod : v.toNat % 256 ^ 8 = v.toNat := Nat.mod_eq_of_lt v.toNat_lt
  rw [takeFixed64, if_neg (by rw [List.length_append]; omega), List.take_left' hlen,
    List.drop_left' hlen, littleEndian_toLittleEndian, hmod, UInt64.ofNat_toNat]

theorem takeDelimited_append {bs : List UInt8} (h : bs.length < 2 ^ 64) (rest : List UInt8) :
    takeDelimited (leb128 bs.length ++ bs ++ rest) = some (bs, rest) := by
  have hn : (UInt64.ofNat bs.length).toNat = bs.length := UInt64.toNat_ofNat_of_lt' h
  rw [takeDelimited, List.append_assoc, takeVarint_append_of_lt h]
  simp [hn]

theorem takeField_key {key : Nat} (h : key < 2 ^ 64) (bs : List UInt8) :
    takeField (leb128 key ++ bs) = takePayload key bs := by
  rw [takeField, takeVarint_append_of_lt h]
  change takePayload (UInt64.ofNat key).toNat bs = _
  rw [UInt64.toNat_ofNat_of_lt' h]

theorem takeField_append {f : WireField} (h : f.Fits) (rest : List UInt8) :
    takeField (f.bytes ++ rest) = some (f, rest) := by
  obtain ⟨number, payload⟩ := f
  cases payload with
  | varint v =>
    change number < 2 ^ 29 at h
    have hmod : 8 * number % 8 = 0 := by omega
    have hdiv : 8 * number / 8 = number := by omega
    rw [WireField.bytes, List.append_assoc, takeField_key (by omega), takePayload]
    simp only [hmod, hdiv, takeVarint_append, Option.map_some]
  | fixed64 v =>
    change number < 2 ^ 29 at h
    have hmod : (8 * number + 1) % 8 = 1 := by omega
    have hdiv : (8 * number + 1) / 8 = number := by omega
    rw [WireField.bytes, List.append_assoc, takeField_key (by omega), takePayload]
    simp only [hmod, hdiv, takeFixed64_append, Option.map_some]
  | delimited bs =>
    obtain ⟨hnumber, hlen⟩ := h
    have hmod : (8 * number + 2) % 8 = 2 := by omega
    have hdiv : (8 * number + 2) / 8 = number := by omega
    rw [WireField.bytes, List.append_assoc, takeField_key (by omega), takePayload]
    simp only [hmod, hdiv, takeDelimited_append hlen, Option.map_some]

theorem WireField.bytes_ne_nil (f : WireField) : f.bytes ≠ [] := by
  obtain ⟨number, payload⟩ := f
  apply List.ne_nil_of_length_pos
  cases payload <;> rw [WireField.bytes, List.length_append] <;>
    exact Nat.add_pos_left (length_leb128_pos _) _

theorem readFields_append {f : WireField} (h : f.Fits) (rest : List UInt8) :
    readFields (f.bytes ++ rest) = (readFields rest).map (f :: ·) := by
  have htake := takeField_append h rest
  cases hb : f.bytes with
  | nil => exact absurd hb f.bytes_ne_nil
  | cons b bs =>
    rw [hb, List.cons_append] at htake
    rw [List.cons_append, readFields]
    split
    · next hn => rw [htake] at hn; contradiction
    · next g tail hg =>
      rw [htake, Option.some.injEq, Prod.mk.injEq] at hg
      rw [hg.1, hg.2]

/-- Fields are read back from their bytes. -/
theorem readFields_flatMap {fs : List WireField} (h : ∀ f ∈ fs, f.Fits) :
    readFields (fs.flatMap WireField.bytes) = some fs := by
  induction fs with
  | nil => rw [List.flatMap_nil, readFields]
  | cons f fs ih =>
    obtain ⟨hf, hfs⟩ := List.forall_mem_cons.1 h
    rw [List.flatMap_cons, readFields_append hf, ih hfs, Option.map_some]

end SpanWire.Wire
