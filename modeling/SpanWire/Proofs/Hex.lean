import SpanWire.Hex

/-! Spelled digits are read back, all at once or two characters at a time. -/
namespace SpanWire.Hex

/-- The bytes that characters spell, two for each; whatever is no digit is refused. -/
def decodePairs? : List Char → Option (List UInt8)
  | hi :: lo :: cs => do
    let h ← Digit.ofChar? hi
    let l ← Digit.ofChar? lo
    let bs ← decodePairs? cs
    some (UInt8.ofNat (16 * h.val + l.val) :: bs)
  | _ => some []

@[simp] theorem toList_spell (ds : List Digit) : (spell ds).toList = ds.map Digit.toChar := by
  simp [spell]

theorem length_spell (ds : List Digit) : (spell ds).length = ds.length := by
  rw [← String.length_toList, toList_spell, List.length_map]

@[simp] theorem Digit.ofChar?_toChar (d : Digit) : Digit.ofChar? d.toChar = some d := by
  revert d
  decide

theorem Digit.utf8Size_toChar (d : Digit) : d.toChar.utf8Size = 1 := by
  revert d
  decide

@[simp] theorem read?_map_toChar (ds : List Digit) : read? (ds.map Digit.toChar) = some ds := by
  induction ds with
  | nil => rfl
  | cons d ds ih => simp [read?, ih]

@[simp] theorem decodePairs?_map_toChar (ds : List Digit) :
    decodePairs? (ds.map Digit.toChar) = some (toBytes ds) := by
  fun_induction toBytes ds with
  | case1 hi lo ds ih => simp [decodePairs?, ih]
  | case2 ds h =>
    match ds, h with
    | [], _ => rfl
    | [d], _ => rfl
    | hi :: lo :: rest, h => exact (h hi lo rest rfl).elim

theorem length_toBytes (ds : List Digit) : (toBytes ds).length = ds.length / 2 := by
  fun_induction toBytes ds with
  | case1 hi lo ds ih =>
    simp only [List.length_cons, ih]
    omega
  | case2 ds h =>
    match ds, h with
    | [], _ => rfl
    | [d], _ => simp
    | hi :: lo :: rest, h => exact (h hi lo rest rfl).elim

theorem digitsOfByte_ofNat (hi lo : Digit) :
    digitsOfByte (UInt8.ofNat (16 * hi.val + lo.val)) = [hi, lo] := by
  have hn : (UInt8.ofNat (16 * hi.val + lo.val)).toNat = 16 * hi.val + lo.val := by
    rw [UInt8.toNat_ofNat']
    omega
  have hhi : (16 * hi.val + lo.val) / 16 = hi.val := by omega
  have hlo : (16 * hi.val + lo.val) % 16 = lo.val := by omega
  rw [digitsOfByte, hn, hhi, hlo, Fin.ofNat_val_eq_self, Fin.ofNat_val_eq_self]

/-- Digits in pairs are read without loss. -/
theorem ofBytes_toBytes {ds : List Digit} (h : ds.length % 2 = 0) : ofBytes (toBytes ds) = ds := by
  fun_induction toBytes ds with
  | case1 hi lo ds ih =>
    have hrest : ofBytes (toBytes ds) = ds := ih (by simp only [List.length_cons] at h; omega)
    rw [ofBytes, List.flatMap_cons, digitsOfByte_ofNat]
    exact congrArg (hi :: lo :: ·) hrest
  | case2 ds hne =>
    match ds, hne with
    | [], _ => rfl
    | [d], _ => simp at h
    | hi :: lo :: rest, hne => exact (hne hi lo rest rfl).elim

/-- Two digits are enough for a byte. -/
theorem toBytes_ofBytes (bs : List UInt8) : toBytes (ofBytes bs) = bs := by
  induction bs with
  | nil => rfl
  | cons b bs ih =>
    have hlt := b.toNat_lt
    have hb : 16 * (b.toNat / 16 % 16) + b.toNat % 16 % 16 = b.toNat := by omega
    change UInt8.ofNat (16 * (b.toNat / 16 % 16) + b.toNat % 16 % 16) :: toBytes (ofBytes bs) = _
    rw [hb, UInt8.ofNat_toNat, ih]

theorem toBytes_inj {ds es : List Digit} (hds : ds.length % 2 = 0) (hes : es.length % 2 = 0)
    (h : toBytes ds = toBytes es) : ds = es := by
  rw [← ofBytes_toBytes hds, h, ofBytes_toBytes hes]

/-- A digit takes one byte as text. -/
theorem utf8ByteSize_spell (ds : List Digit) : (spell ds).utf8ByteSize = ds.length := by
  rw [spell]
  induction ds with
  | nil => rfl
  | cons d ds ih =>
    rw [List.map_cons, String.ofList_cons, String.utf8ByteSize_append,
      String.utf8ByteSize_singleton, ih, Digit.utf8Size_toChar, List.length_cons, Nat.add_comm]

end SpanWire.Hex
