import SpanWire.Proofs.Wire.Buffer

/-!
Numbers in groups of seven bits take as few bytes as they can. The loop that takes the groups off
ends after as many turns as the length of the number in bits foretells.
-/
namespace SpanWire.Wire

/-- The loop that takes seven bits off a number at a time: how many turns it makes, and the bytes
that it puts out. -/
inductive ShiftsOut : UInt64 → Nat → List UInt8 → Prop
  | last {v : UInt64} : v < 0x80 → ShiftsOut v 0 [v.toUInt8]
  | turn {v : UInt64} {turns : Nat} {bs : List UInt8} : 0x80 ≤ v → ShiftsOut (v >>> 7) turns bs →
    ShiftsOut v (turns + 1) ((v.toUInt8 &&& 0x7f ||| 0x80) :: bs)

namespace ShiftsOut

variable {v : UInt64} {turns : Nat} {bs : List UInt8}

theorem length_eq (h : ShiftsOut v turns bs) : bs.length = turns + 1 := by
  induction h with
  | last => rfl
  | turn _ _ ih => rw [List.length_cons, ih]

theorem eq_varint (h : ShiftsOut v turns bs) : bs = varint v := by
  induction h with
  | last hlast => rw [varint, if_pos hlast]
  | turn hmore _ ih => rw [varint, if_neg (UInt64.not_lt.2 hmore), ih]

/-- Whatever number the loop starts from, it ends. -/
theorem exists_turns (v : UInt64) : ∃ turns, ShiftsOut v turns (varint v) := by
  fun_induction varint v with
  | case1 v hlast => exact ⟨0, last hlast⟩
  | case2 v hmore ih =>
    obtain ⟨turns, h⟩ := ih
    exact ⟨turns + 1, turn (UInt64.not_lt.1 hmore) h⟩

theorem iff_varint : ShiftsOut v turns bs ↔ varintSize v = turns + 1 ∧ bs = varint v := by
  constructor
  · intro h
    obtain rfl := h.eq_varint
    exact ⟨length_varint v ▸ h.length_eq, rfl⟩
  · rintro ⟨hsize, rfl⟩
    obtain ⟨turns', h⟩ := exists_turns v
    have hlength := h.length_eq
    rw [length_varint, hsize] at hlength
    rwa [Nat.succ.inj hlength]

/-- The high bit tells that another byte follows. -/
theorem highBits (h : ShiftsOut v turns bs) :
    ∃ front last, bs = front ++ [last] ∧ (∀ b ∈ front, 0x80 ≤ b) ∧ last < 0x80 := by
  induction h with
  | @last v hlast =>
    refine ⟨[], v.toUInt8, rfl, nofun, ?_⟩
    rw [UInt64.lt_iff_toNat_lt] at hlast
    rw [UInt8.lt_iff_toNat_lt, UInt64.toNat_toUInt8]
    exact Nat.lt_of_le_of_lt (Nat.mod_le _ _) hlast
  | @turn v turns bs _ _ ih =>
    obtain ⟨front, last, rfl, hfront, hlast⟩ := ih
    refine ⟨(v.toUInt8 &&& 0x7f ||| 0x80) :: front, last, rfl, ?_, hlast⟩
    refine List.forall_mem_cons.2 ⟨?_, hfront⟩
    rw [low_group, UInt8.le_iff_toNat_le, UInt8.toNat_ofNat', Nat.mod_eq_of_lt (by omega)]
    exact Nat.le_add_left ..

end ShiftsOut

/-- The length of a number in bits is what its leading zeros leave of the word. -/
theorem log2_add_one_eq {w : Nat} {x : BitVec w} (h : x ≠ 0#w) :
    x.toNat.log2 + 1 = w - x.clz.toNat := by
  have hw : 0 < w := by
    refine Nat.pos_of_ne_zero ?_
    rintro rfl
    exact h BitVec.of_length_zero
  have hne : x.toNat ≠ 0 := fun hx => h (BitVec.eq_of_toNat_eq hx)
  have hlow := (Nat.le_log2 hne).2 (BitVec.two_pow_sub_clz_le_toNat_of_ne_zero hw h)
  have hhigh := (Nat.log2_lt hne).2 (BitVec.toNat_lt_two_pow_sub_clz (x := x))
  omega

theorem varintSize_eq (v : UInt64) :
    varintSize v = (64 - (v ||| 1).toBitVec.clz.toNat + 6) / 7 := by
  have hne : (v ||| 1).toBitVec ≠ 0#64 := by
    intro h
    have hbit := congrArg BitVec.toNat h
    simp at hbit
  rw [← log2_add_one_eq hne]
  rfl

theorem varintSize_le (v : UInt64) : varintSize v ≤ 10 := by
  rw [← length_varint, varint_eq_leb128]
  exact length_leb128_toNat_le v

theorem takeVarint_varint (v : UInt64) (rest : List UInt8) :
    takeVarint (varint v ++ rest) = some (v, rest) := by
  rw [varint_eq_leb128, takeVarint_append]

/-- No varint begins another one. -/
theorem varint_prefix_free {v w : UInt64} (h : varint v <+: varint w) : v = w := by
  obtain ⟨rest, hrest⟩ := h
  have hread := takeVarint_varint v rest
  rw [hrest, ← List.append_nil (varint w), takeVarint_varint] at hread
  exact (Prod.mk.inj (Option.some.inj hread)).1.symm

/-- A number is written in as many bytes as its leading zeros foretell, one more than the loop makes
turns, and all of them but the last have their high bit. It is read back whatever follows, no fewer
bytes are read as that number, and the bytes of one number do not begin those of another. -/
theorem varint_shortest (v : UInt64) :
    (∀ b : Buffer, b.Fits (varintSize v) → ∃ b', b.put (.varint v) = .done b' ∧
      b'.pos = b.pos + varintSize v ∧ Buffer.StoredAt b.bytes b.pos (varint v) b'.bytes) ∧
    ((varint v).length = varintSize v ∧ 1 ≤ varintSize v ∧ varintSize v ≤ 10) ∧
    (∀ rest, takeVarint (varint v ++ rest) = some (v, rest)) ∧
    (∃ front last, varint v = front ++ [last] ∧ (∀ b ∈ front, 0x80 ≤ b) ∧ last < 0x80) ∧
    (∀ limit bs rest, takeLeb128 limit bs = some (v.toNat, rest) →
      varintSize v + rest.length ≤ bs.length) ∧
    (∃ turns, (∀ n bs, ShiftsOut v n bs ↔ n = turns ∧ bs = varint v) ∧
      (64 - (v ||| 1).toBitVec.clz.toNat + 6) / 7 = turns + 1 ∧ varintSize v = turns + 1) ∧
    ∀ w, varint v <+: varint w → v = w := by
  obtain ⟨turns, hturns⟩ := ShiftsOut.exists_turns v
  obtain ⟨hsize, -⟩ := ShiftsOut.iff_varint.1 hturns
  refine ⟨?stored, ⟨length_varint v, varintSize_pos v, varintSize_le v⟩, takeVarint_varint v,
    hturns.highBits, ?shortest, ⟨turns, ?loop, varintSize_eq v ▸ hsize, hsize⟩,
    fun w => varint_prefix_free⟩
  case stored =>
    intro b hfits
    rw [← length_varint] at hfits ⊢
    exact ⟨_, Buffer.put_eq_done_iff.2 ⟨hfits, rfl⟩, rfl, Buffer.storedAt_stored hfits⟩
  case shortest =>
    intro limit bs rest h
    rw [← length_varint, varint_eq_leb128]
    exact length_leb128_of_takeLeb128 h
  case loop =>
    intro n bs
    rw [ShiftsOut.iff_varint, hsize]
    exact and_congr_left fun _ => by omega

/-- The greatest number of two bytes, in a buffer that has room for three. Three bytes may be read
as the same number, one may not. -/
theorem varint_shortest_sample :
    (∃ b', Buffer.put ⟨#[7, 7, 7], 0⟩ (.varint 16383) = .done b' ∧ b'.pos = 2 ∧
      Buffer.StoredAt #[7, 7, 7] 0 [0xff, 0x7f] b'.bytes) ∧
    takeVarint [0xff, 0x7f, 1] = some (16383, [1]) ∧
    (takeLeb128 10 [0xff, 0xff, 0] = some (16383, []) ∧ varintSize 16383 + 0 ≤ 3) ∧
    ∀ w, [0xff, 0x7f] <+: varint w → 16383 = w := by
  have hbytes : varint 16383 = [0xff, 0x7f] := by decide +kernel
  have hsize : varintSize 16383 = 2 := by decide
  obtain ⟨hstored, -, hread, -, hshortest, -, hprefix⟩ := varint_shortest 16383
  have hlong : takeLeb128 10 [0xff, 0xff, 0] = some (16383, []) := by decide
  rw [hbytes] at hstored hread hprefix
  rw [hsize] at hstored
  have hfits : (Buffer.mk #[7, 7, 7] 0).Fits 2 := by
    unfold Buffer.Fits
    decide
  exact ⟨hstored _ hfits, hread [1], ⟨hlong, hshortest 10 _ _ hlong⟩, hprefix⟩

end SpanWire.Wire
