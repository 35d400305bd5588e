/-! Numbers in groups of seven bits, the least significant group first. -/
namespace SpanWire.Wire

/-- Every byte but the last has its high bit set. -/
def varint (v : UInt64) : List UInt8 :=
  if v < 0x80 then [v.toUInt8]
  else (v.toUInt8 &&& 0x7f ||| 0x80) :: varint (v >>> 7)
termination_by v.toNat
decreasing_by
  have h : ¬ v.toNat < 128 := by simpa [UInt64.lt_iff_toNat_lt] using ‹¬ v < 0x80›
  simp only [UInt64.toNat_shiftRight, UInt64.reduceToNat, Nat.reduceMod, Nat.shiftRight_eq_div_pow]
  omega

/-- How many groups a number needs, from its length in bits. Zero is one bit long. -/
def varintSize (v : UInt64) : Nat :=
  ((v ||| 1).toNat.log2 + 1 + 6) / 7

end SpanWire.Wire
